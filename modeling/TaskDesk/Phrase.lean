import TaskDesk.Text.Blank
import TaskDesk.Text.Case
import TaskDesk.Text.Word

/-!
# Phrases

A phrase is a shape that a piece of a text can have: letters in any case,
runs of a class of characters, alternatives, and conditions on the two
characters around a place. `Phrase.ends` lists all places where a piece of that
shape that starts at a given place can end, the preferred one first: runs are as
long as they can be, and of two alternatives the first is tried first.
`Phrase.find?` is the leftmost occurrence with its preferred end, and
`Phrase.eraseAll` cuts all occurrences, from left to right.

Results:
* `after_of_mem_ends`: a piece of a phrase is read off the text after its start.
* `find?_append`: an occurrence splits the text in three.
-/

namespace TaskDesk

/-- A place in a text. The text before it is kept with the nearest character
    first. -/
structure Place where
  before : Text
  after : Text
deriving DecidableEq, Repr

/-- A shape of pieces of text. -/
inductive Phrase where
  /-- The empty piece. -/
  | nothing
  /-- The empty piece, where the characters on both sides pass the test. -/
  | here (test : Option CodePoint → Option CodePoint → Bool)
  /-- One character that passes the test. -/
  | one (test : CodePoint → Bool)
  /-- At least `least` and at most `most` characters that pass the test. -/
  | many (test : CodePoint → Bool) (least : Nat) (most : Option Nat)
  /-- A piece of the first shape and then one of the second. -/
  | seq (first second : Phrase)
  /-- A piece of one of two shapes; the first is preferred. -/
  | either (first second : Phrase)

namespace Phrase

/-! ## Where a piece can end -/

/-- The ends of a run that starts at the place, longest first, in front of
    `found`, the ends of shorter runs. -/
def runEnds (test : CodePoint → Bool) :
    (least : Nat) → (most : Option Nat) → (found : List Place) → (before after : Text) → List Place
  | least, _, found, before, [] => if least = 0 then ⟨before, []⟩ :: found else found
  | least, most, found, before, c :: rest =>
    let found := if least = 0 then ⟨before, c :: rest⟩ :: found else found
    if most ≠ some 0 ∧ test c then
      runEnds test (least - 1) (most.map (· - 1)) found (c :: before) rest
    else found

/-- The places where a piece of the phrase that starts at `p` can end, preferred
    ones first. -/
def ends : Phrase → Place → List Place
  | nothing, p => [p]
  | here test, p => if test p.before.head? p.after.head? then [p] else []
  | one test, p =>
    match p.after with
    | [] => []
    | c :: rest => if test c then [⟨c :: p.before, rest⟩] else []
  | many test least most, p => runEnds test least most [] p.before p.after
  | seq first second, p => (first.ends p).flatMap fun q => second.ends q
  | either first second, p => first.ends p ++ second.ends p

/-- `q` lies at or after `p` in the same text. -/
def Reaches (p q : Place) : Prop :=
  ∃ piece, p.after = piece ++ q.after ∧ q.before = piece.reverse ++ p.before

theorem Reaches.refl (p : Place) : Reaches p p := ⟨[], by simp⟩

theorem Reaches.trans {p q r : Place} (h : Reaches p q) (h' : Reaches q r) : Reaches p r := by
  obtain ⟨s, hs, hs'⟩ := h
  obtain ⟨t, ht, ht'⟩ := h'
  exact ⟨s ++ t, by simp [hs, ht], by simp [hs', ht']⟩

theorem reaches_of_mem_runEnds (test : CodePoint → Bool) {p : Place} {after : Text} :
    ∀ {least most found before} {q : Place}, (∀ r ∈ found, Reaches p r) →
      Reaches p ⟨before, after⟩ → q ∈ runEnds test least most found before after →
      Reaches p q := by
  induction after with
  | nil =>
    intro least most found before q hf hp hq
    unfold runEnds at hq
    split at hq
    · rcases List.mem_cons.1 hq with rfl | hq
      · exact hp
      · exact hf q hq
    · exact hf q hq
  | cons c rest ih =>
    intro least most found before q hf hp hq
    have hf' : ∀ r ∈ (if least = 0 then ⟨before, c :: rest⟩ :: found else found), Reaches p r := by
      intro r hr
      split at hr
      · rcases List.mem_cons.1 hr with rfl | hr
        · exact hp
        · exact hf r hr
      · exact hf r hr
    unfold runEnds at hq
    dsimp only at hq
    split at hq
    · exact ih hf' (hp.trans ⟨[c], by simp⟩) hq
    · exact hf' q hq

theorem reaches_of_mem_ends (phrase : Phrase) {p q : Place} (h : q ∈ phrase.ends p) :
    Reaches p q := by
  induction phrase generalizing p q with
  | nothing => simp only [ends, List.mem_singleton] at h; exact h ▸ .refl p
  | here test =>
    simp only [ends] at h
    split at h
    · rw [List.mem_singleton.1 h]; exact .refl p
    · simp at h
  | one test =>
    simp only [ends] at h
    split at h
    · simp at h
    · rename_i c rest hc
      split at h
      · rw [List.mem_singleton.1 h]; exact ⟨[c], by simp [hc]⟩
      · simp at h
  | many test least most =>
    exact reaches_of_mem_runEnds test (by simp) (.refl p) h
  | seq first second ih₁ ih₂ =>
    obtain ⟨r, hr, hq⟩ := List.mem_flatMap.1 h
    exact (ih₁ hr).trans (ih₂ hq)
  | either first second ih₁ ih₂ =>
    rcases List.mem_append.1 h with h | h
    · exact ih₁ h
    · exact ih₂ h

/-- What a phrase has read stands between the two places. -/
theorem after_of_mem_ends (phrase : Phrase) {p q : Place} (h : q ∈ phrase.ends p) :
    p.after = p.after.take (p.after.length - q.after.length) ++ q.after := by
  obtain ⟨piece, hp, -⟩ := reaches_of_mem_ends phrase h
  rw [hp]
  simp

/-! ## Occurrences -/

/-- A piece of a text with what stands before and after it. -/
structure Occurrence where
  before : Text
  piece : Text
  after : Text
deriving DecidableEq, Repr

/-- The text around the piece, without blanks at either end. -/
def Occurrence.residual (o : Occurrence) : Text := Text.trim (o.before ++ o.after)

/-- The piece between two places of a text. -/
def between (p q : Place) : Occurrence :=
  ⟨p.before.reverse, p.after.take (p.after.length - q.after.length), q.after⟩

/-- The first occurrence that starts in `after`, where `before` has been passed. -/
def findFrom (phrase : Phrase) : (before after : Text) → Option Occurrence
  | before, [] => (phrase.ends ⟨before, []⟩).head?.map (between ⟨before, []⟩)
  | before, c :: rest =>
    match (phrase.ends ⟨before, c :: rest⟩).head? with
    | some q => some (between ⟨before, c :: rest⟩ q)
    | none => findFrom phrase (c :: before) rest

/-- The leftmost occurrence of the phrase, with its preferred end. -/
def find? (phrase : Phrase) (t : Text) : Option Occurrence := phrase.findFrom [] t

/-- Whether the phrase occurs in the text. -/
def occursIn (phrase : Phrase) (t : Text) : Bool := (phrase.find? t).isSome

/-- The text after `before` without the occurrences of the phrase, of which the
    first `skip` characters belong to an occurrence already met. -/
def eraseFrom (phrase : Phrase) : (before : Text) → (skip : Nat) → (after : Text) → Text
  | _, _, [] => []
  | before, skip + 1, c :: rest => eraseFrom phrase (c :: before) skip rest
  | before, 0, c :: rest =>
    match (phrase.ends ⟨before, c :: rest⟩).head? with
    | some q =>
      match (c :: rest).length - q.after.length with
      | 0 => c :: eraseFrom phrase (c :: before) 0 rest
      | length + 1 => eraseFrom phrase (c :: before) length rest
    | none => c :: eraseFrom phrase (c :: before) 0 rest

/-- The text without the occurrences of the phrase, found from left to right and
    not overlapping. -/
def eraseAll (phrase : Phrase) (t : Text) : Text := phrase.eraseFrom [] 0 t

theorem between_append {phrase : Phrase} {p q : Place} (h : q ∈ phrase.ends p) :
    (between p q).before ++ (between p q).piece ++ (between p q).after
      = p.before.reverse ++ p.after := by
  simp only [between, List.append_assoc]
  rw [← after_of_mem_ends phrase h]

theorem findFrom_append {phrase : Phrase} {before after : Text} {o : Occurrence}
    (h : phrase.findFrom before after = some o) :
    o.before ++ o.piece ++ o.after = before.reverse ++ after := by
  induction after generalizing before with
  | nil =>
    obtain ⟨q, hq, rfl⟩ := Option.map_eq_some_iff.1 h
    exact between_append (List.mem_of_head? hq)
  | cons c rest ih =>
    unfold findFrom at h
    split at h
    · rename_i q hq
      cases h
      exact between_append (List.mem_of_head? hq)
    · rw [ih h]; simp

/-- An occurrence splits the text into what is before it, itself, and the rest. -/
theorem find?_append {phrase : Phrase} {t : Text} {o : Occurrence} (h : phrase.find? t = some o) :
    o.before ++ o.piece ++ o.after = t := by
  simpa using findFrom_append h

/-! ## Building phrases -/

/-- A place between a word character and a character, or an end of the text,
    that is none. -/
def edge : Phrase := here fun before after => before.any isWord != after.any isWord

/-- The letters in any case. -/
def letters : Text → Phrase
  | [] => nothing
  | c :: rest => seq (one fun d => foldLetter d == c) (letters rest)

/-- One or more blanks. -/
def blanks : Phrase := many isBlank 1 none

/-- A piece of the shape, or nothing. -/
def maybe (phrase : Phrase) : Phrase := either phrase nothing

/-- Pieces of all the shapes, one after the other. -/
def inOrder : List Phrase → Phrase
  | [] => nothing
  | [p] => p
  | p :: more => seq p (inOrder more)

/-- A piece of one of the shapes; earlier ones are preferred. -/
def oneOf : List Phrase → Phrase
  | [] => here fun _ _ => false
  | [p] => p
  | p :: more => either p (oneOf more)

/-- The phrase where it does not cut a word at either end. -/
def whole (phrase : Phrase) : Phrase := inOrder [edge, phrase, edge]

/-- A keyword as it is written, in any case, not inside a longer word. -/
def keyword (t : Text) : Phrase := whole (letters t)

end Phrase
end TaskDesk
