/-
  PagePress.Template.Braces

  The braces of a tag.
-/

import PagePress.Text.Basic

namespace PagePress

/-- A tag with the given text between its braces. -/
def braced (content : Text) : Text := '{' :: '{' :: (content ++ ['}', '}'])

@[simp] theorem length_braced (content : Text) : (braced content).length = content.length + 4 := by
  simp [braced]

end PagePress
