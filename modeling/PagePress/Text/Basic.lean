/-
  PagePress.Text.Basic

  Text as a list of Unicode scalar values.

  Every rule of the library (tags, spans, measures, escapes) is a rule on
  scalar values, so text is kept as the list of them.  String literals coerce
  to `Text`; strings proper appear only where the outside world is met.
-/

namespace PagePress

/-- Text is the list of its Unicode scalar values, first to last. -/
abbrev Text := List Char

instance : Coe String Text := ⟨String.toList⟩

namespace Text

/-! ## Length in bytes -/

/-- The length of a text in UTF-8. -/
def bytes : Text → Nat
  | [] => 0
  | c :: cs => c.utf8Size + bytes cs

@[simp] theorem bytes_nil : bytes [] = 0 := rfl

@[simp] theorem bytes_cons (c : Char) (t : Text) : bytes (c :: t) = c.utf8Size + bytes t := rfl

@[simp] theorem bytes_append (s t : Text) : bytes (s ++ t) = bytes s + bytes t := by
  induction s with
  | nil => simp
  | cons c s ih => simp only [List.cons_append, bytes_cons, ih]; omega

/-! ## Numbers in text -/

/-- The decimal digits of a natural number, without leading zeros. -/
def ofNat (n : Nat) : Text := Nat.toDigits 10 n

/-- The decimal digits of an integer, with a minus sign below zero. -/
def ofInt : Int → Text
  | .ofNat n => ofNat n
  | .negSucc n => '-' :: ofNat (n + 1)

def isDigit (c : Char) : Bool := '0' ≤ c && c ≤ '9'

def digitValue (c : Char) : Nat := c.toNat - '0'.toNat

/-- The number that a text of decimal digits stands for. -/
def natOfDigits (t : Text) : Nat := t.foldl (fun n c => 10 * n + digitValue c) 0

/-- The value of a hexadecimal digit of either case. -/
def hexValue? (c : Char) : Option Nat :=
  if isDigit c then some (digitValue c)
  else if 'a' ≤ c && c ≤ 'f' then some (c.toNat - 'a'.toNat + 10)
  else if 'A' ≤ c && c ≤ 'F' then some (c.toNat - 'A'.toNat + 10)
  else none

/-- The lower-case hexadecimal digit of a number below sixteen. -/
def hexDigit (n : Nat) : Char := Nat.digitChar n

/-! ## Splitting and searching -/

/-- Splits at every occurrence of a separator; there is one piece more than there are separators. -/
def splitOn (sep : Char) : Text → List Text
  | [] => [[]]
  | c :: cs =>
    if c = sep then [] :: splitOn sep cs
    else match splitOn sep cs with
      | [] => [[c]]
      | piece :: pieces => (c :: piece) :: pieces

/-- What precedes and what follows the first place where a character stands twice in a row. -/
def cutAtPair (pair : Char) : Text → Option (Text × Text)
  | a :: b :: cs =>
    if a = pair ∧ b = pair then some ([], cs)
    else (cutAtPair pair (b :: cs)).map fun (before, after) => (a :: before, after)
  | _ => none

theorem cutAtPair_eq {pair : Char} {t before after : Text}
    (h : cutAtPair pair t = some (before, after)) :
    t = before ++ pair :: pair :: after := by
  fun_induction cutAtPair pair t generalizing before after with
  | case1 a b cs hab =>
    simp only [Option.some.injEq, Prod.mk.injEq] at h
    obtain ⟨rfl, rfl⟩ := h
    simp [hab.1, hab.2]
  | case2 a b cs hab ih =>
    obtain ⟨⟨u, v⟩, huv, hp⟩ := Option.map_eq_some_iff.1 h
    simp only [Prod.mk.injEq] at hp
    obtain ⟨rfl, rfl⟩ := hp
    rw [ih huv]
    rfl
  | case3 => simp at h

/-- Whether a text occurs somewhere in another. -/
def occursIn (part : Text) : Text → Bool
  | [] => part.isEmpty
  | c :: cs => part.isPrefixOf (c :: cs) || occursIn part cs

/-- Whether a text comes before another when they are compared scalar by scalar. -/
def before (s t : Text) : Bool := decide (s < t)

/-- A list without its repetitions: of equal members the last one stays. -/
def distinct {α : Type} [DecidableEq α] : List α → List α
  | [] => []
  | x :: xs => if x ∈ xs then distinct xs else x :: distinct xs

end Text

end PagePress
