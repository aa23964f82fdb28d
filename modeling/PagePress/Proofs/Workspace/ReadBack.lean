/-
  PagePress.Proofs.Workspace.ReadBack

  What is written to a file is read from it.

  A way that ends in a directory goes through directories alone
  (`Workspace.leads_of_find`), so a file that is put into the tree does not
  close it, and the path that the file was written to leads along it to the
  file (`Workspace.read_of_write?`).
-/

import Mathlib.Tactic.SplitIfs
import PagePress.Workspace.Basic

namespace PagePress

theorem Path.isName_iff {name : Text} :
    isName name = true ↔
      staysPut name = false ∧ name ≠ ['.', '.'] ∧ Text.bytes name < nameLimit := by
  simp [isName, and_assoc]

namespace Workspace

/-! ## Ways through directories -/

/-- Names lead from one directory to another, through directories alone. -/
inductive Leads (w : Workspace) : Place → List Text → Place → Prop where
  | done (p : Place) : Leads w p [] p
  | stay {p d : Place} {name : Text} {names : List Text} (hname : Path.staysPut name = true)
      (rest : Leads w p names d) : Leads w p (name :: names) d
  | up {p d : Place} {names : List Text} (rest : Leads w p.tail names d) :
      Leads w p (['.', '.'] :: names) d
  | enter {p d : Place} {name : Text} {names : List Text} (hname : Path.isName name = true)
      (hdir : w.isDirectory (name :: p) = true) (rest : Leads w (name :: p) names d) :
      Leads w p (name :: names) d

theorem leads_of_find {w : Workspace} {p d : Place} {names : List Text}
    (h : w.find p names = .ok d) (hd : w.isDirectory d = true) : w.Leads p names d := by
  induction names generalizing p with
  | nil =>
      obtain rfl : p = d := by simpa [find] using h
      exact .done p
  | cons name names ih =>
      rw [find] at h
      split_ifs at h with hstay hup hname hdir hfile hlast
      · exact .stay hstay (ih h)
      · rw [hup]
        exact .up (ih h)
      · exact .enter (by simpa using hname) hdir (ih h)
      · -- the way would end in a file
        obtain rfl : name :: p = d := by simpa using h
        exact absurd hd hdir

namespace Leads

variable {w : Workspace} {p d : Place} {names : List Text}

theorem find_append (h : w.Leads p names d) (more : List Text) :
    w.find p (names ++ more) = w.find d more := by
  induction h with
  | done p => rfl
  | stay hname _ ih => rw [List.cons_append, find, if_pos hname, ih]
  | up _ ih => rw [List.cons_append, find, if_neg (by decide), if_pos rfl, ih]
  | enter hname hdir _ ih =>
      obtain ⟨hstay, hup, -⟩ := Path.isName_iff.1 hname
      rw [List.cons_append, find, hstay, if_neg Bool.false_ne_true, if_neg hup, hname,
        if_neg (by decide), if_pos hdir, ih]

/-- A file that is put into the tree closes no way. -/
theorem put (h : w.Leads p names d) (q : Place) (file : Option Text) :
    (w.put q file).Leads p names d := by
  induction h with
  | done p => exact .done p
  | stay hname _ ih => exact .stay hname ih
  | up _ ih => exact .up ih
  | enter hname hdir _ ih => exact .enter hname hdir ih

end Leads

/-! ## Reading what was written -/

theorem file?_put (w : Workspace) (p : Place) (file : Option Text) :
    (w.put p file).file? p = some file := by
  rw [put, file?, List.lookup_cons_self]

/-- A file is found in the directory that it was put into. -/
theorem find_put {w : Workspace} {d : Place} {name : Text} (hname : Path.isName name = true)
    (hfree : w.isDirectory (name :: d) = false) (file : Option Text) :
    (w.put (name :: d) file).find d [name] = .ok (name :: d) := by
  obtain ⟨hstay, hup, -⟩ := Path.isName_iff.1 hname
  have hfree' : (w.put (name :: d) file).isDirectory (name :: d) = false := hfree
  rw [find, hstay, if_neg Bool.false_ne_true, if_neg hup, hname, if_neg (by decide), hfree',
    if_neg Bool.false_ne_true, file?_put, Option.isSome_some, if_pos rfl]
  rfl

/-- The text that was written to a file is read under the same path. -/
theorem read_of_write? {w w' : Workspace} {path content : Text}
    (h : w.write? path content = some w') : w'.read path = .ok content := by
  obtain ⟨p, hplace, h⟩ := Option.bind_eq_some_iff.1 h
  obtain ⟨hfree, rfl⟩ : w.isDirectory p = false ∧ w.put p (some content) = w' := by
    simpa using h
  rw [place?] at hplace
  split at hplace
  · next name d hlast hfind =>
      obtain ⟨⟨hpath, hname, hd⟩, rfl⟩ : (_ ∧ _ ∧ _) ∧ name :: d = p := by simpa using hplace
      obtain ⟨names, hnames⟩ := List.getLast?_eq_some_iff.1 hlast
      rw [hnames, List.dropLast_concat] at hfind
      have hway := (leads_of_find hfind hd).put (name :: d) (some content)
      have hfound := hway.find_append [name]
      rw [find_put hname hfree] at hfound
      have hnonempty : path ≠ [] := by
        rintro rfl
        obtain rfl : [] = name := Option.some.inj hlast
        exact absurd hname (by decide)
      have hstart (names : List Text) :
          (w.put (name :: d) (some content)).startOf names = w.startOf names := rfl
      rw [read, if_neg (by simpa using hnonempty), hpath, if_neg (by decide)]
      simp only [hstart, hnames, hfound, file?_put]
  · exact absurd hplace.symm (Option.some_ne_none _)

end Workspace

end PagePress
