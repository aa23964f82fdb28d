/-
  PagePress.Particle

  Korean particles.

  Many particles have two forms, and the last syllable of the word before
  decides between them: one form follows a syllable with a final consonant
  (a batchim), the other an open syllable.  A spec `A/B` names both, the form
  after a final consonant first.

  The precomposed syllables U+AC00 to U+D7A3 come in runs of 28, one for each
  pair of an initial and a vowel; the first of a run has no final consonant.
  A word that ends in anything else counts as open.
-/

import PagePress.Text.Basic

namespace PagePress

/-- The first precomposed syllable. -/
def firstSyllable : Nat := 0xAC00

/-- The last precomposed syllable. -/
def lastSyllable : Nat := 0xD7A3

/-- The number of syllables with the same initial and vowel. -/
def finalCount : Nat := 28

/-- Whether a character is a syllable with a final consonant. -/
def closesSyllable (c : Char) : Bool :=
  firstSyllable ≤ c.toNat && c.toNat ≤ lastSyllable &&
    (c.toNat - firstSyllable) % finalCount != 0

/-- Whether a word ends in a final consonant. -/
def hasBatchim (word : Text) : Bool := word.getLast?.any closesSyllable

/-- The two forms of a particle. -/
structure Particle where
  afterBatchim : Text
  afterVowel : Text
  deriving DecidableEq

namespace Particle

/-- Reads a spec; it must hold exactly one slash. -/
def parse? (spec : Text) : Option Particle :=
  match Text.splitOn '/' spec with
  | [a, b] => some ⟨a, b⟩
  | _ => none

def parseError (spec : Text) : Text :=
  "Invalid particle spec '" ++ spec ++ "': expected exactly two alternatives separated by '/'"

/-- The spec of a particle. -/
def display (p : Particle) : Text := p.afterBatchim ++ '/' :: p.afterVowel

/-- The form that follows a word. -/
def formFor (p : Particle) (word : Text) : Text :=
  if hasBatchim word then p.afterBatchim else p.afterVowel

/-- A word followed by the form that suits it. -/
def attach (p : Particle) (word : Text) : Text := word ++ p.formFor word

/-- A word followed by the particle of a spec, if the spec reads. -/
def attachSpec? (word spec : Text) : Option Text := (parse? spec).map (·.attach word)

/-- A word followed by the particle of a spec; the word alone if the spec does not read. -/
def attachSpec (word spec : Text) : Text := (attachSpec? word spec).getD word

end Particle

/-! ## Roles -/

/-- The roles of a word in a sentence that have a particle of their own. -/
inductive Role where
  | subject
  | object
  | topic
  | location
  | time
  | instrument
  | companion
  | source
  | destination
  deriving DecidableEq

namespace Role

def all : List Role :=
  [subject, object, topic, location, time, instrument, companion, source, destination]

def name : Role → Text
  | subject => "Subject"
  | object => "Object"
  | topic => "Topic"
  | location => "Location"
  | time => "Time"
  | instrument => "Instrument"
  | companion => "Companion"
  | source => "Source"
  | destination => "Destination"

def particle : Role → Particle
  | subject => ⟨"이", "가"⟩
  | object => ⟨"을", "를"⟩
  | topic => ⟨"은", "는"⟩
  | location | time => ⟨"에", "에"⟩
  | instrument | destination => ⟨"으로", "로"⟩
  | companion => ⟨"과", "와"⟩
  | source => ⟨"에서", "에서"⟩

/-- A word with the particle of its role. -/
def attach (r : Role) (word : Text) : Text := r.particle.attach word

end Role

end PagePress
