/-
  PagePress.Diagnostic.Catalog

  The catalog of diagnostic codes.

  A code reads `L-<subsystem>-<number>`: subsystem 1 is the rendering of
  templates, 2 the judging of pages, 3 the configuration.
-/

import PagePress.Text.Basic

namespace PagePress

/-- What the catalog says about a code. -/
structure CatalogEntry where
  code : Text
  subsystem : Text
  title : Text
  message : Text
  /-- The version that brought the code. -/
  since : Text
  deriving DecidableEq

namespace Catalog

/-- Every code, by subsystem and number. -/
def entries : List CatalogEntry :=
  [{ code := "L-1-1", subsystem := "template", title := "Malformed Particle Spec",
     message := "A particle spec must have exactly two alternatives separated by '/'.",
     since := "0.1.0" },
   { code := "L-1-2", subsystem := "template", title := "Unresolved Variable",
     message := "A variable reference did not resolve and was removed from the output.",
     since := "0.1.0" },
   { code := "L-1-3", subsystem := "template", title := "Unresolved Particle Word",
     message := "The word for a particle reference did not resolve and the reference was removed.",
     since := "0.1.0" },
   { code := "L-1-4", subsystem := "template", title := "Unknown Pattern Pool",
     message := "A pattern reference names a category or section that is not in the pattern library.",
     since := "0.1.0" },
   { code := "L-1-5", subsystem := "template", title := "Pattern Nesting Too Deep",
     message := "Pattern templates nested beyond the configured depth were not expanded.",
     since := "0.1.0" },
   { code := "L-1-6", subsystem := "template", title := "Unbalanced Block Tag",
     message := "A block tag has no matching counterpart and was treated as literal text.",
     since := "0.1.0" },
   { code := "L-2-1", subsystem := "lint", title := "Content Too Short",
     message := "Content is shorter than the minimum length for its type.",
     since := "0.1.0" },
   { code := "L-2-2", subsystem := "lint", title := "Content Too Long",
     message := "Content is longer than the maximum length for its type.",
     since := "0.1.0" },
   { code := "L-2-3", subsystem := "lint", title := "Missing Required Field",
     message := "A field required for this content type is missing or empty.",
     since := "0.1.0" },
   { code := "L-2-4", subsystem := "lint", title := "Forbidden Word",
     message := "Content contains a word that may not be published.",
     since := "0.1.0" },
   { code := "L-2-5", subsystem := "lint", title := "Heading Count",
     message := "Content must contain exactly one top-level heading.",
     since := "0.1.0" },
   { code := "L-2-6", subsystem := "lint", title := "Missing Breadcrumb",
     message := "Content has no breadcrumb marker.",
     since := "0.1.0" },
   { code := "L-2-7", subsystem := "lint", title := "Too Few Internal Links",
     message := "Content has fewer internal links than configured.",
     since := "0.1.0" },
   { code := "L-2-8", subsystem := "lint", title := "Too Few FAQ Entries",
     message := "Content has fewer FAQ entries than the minimum for its type.",
     since := "0.1.0" },
   { code := "L-2-9", subsystem := "lint", title := "Too Many FAQ Entries",
     message := "Content has more FAQ entries than the maximum for its type.",
     since := "0.1.0" },
   { code := "L-2-10", subsystem := "lint", title := "Near-Duplicate Content",
     message := "Content overlaps its reference text more than allowed.",
     since := "0.1.0" },
   { code := "L-2-11", subsystem := "lint", title := "Unknown Content Type",
     message := "No rules are configured for this content type.",
     since := "0.1.0" },
   { code := "L-2-12", subsystem := "lint", title := "Quality Score Below Threshold",
     message := "The content quality score is below the publish threshold.",
     since := "0.1.0" },
   { code := "L-3-1", subsystem := "config", title := "Invalid Rule Set",
     message := "The lint rule set is inconsistent.",
     since := "0.1.0" }]

def find? (code : Text) : Option CatalogEntry := entries.find? fun e => e.code == code

/-- The entries with their codes in ascending order as texts. -/
def sorted : List CatalogEntry := entries.mergeSort fun a b => !Text.before b.code a.code

end Catalog

end PagePress
