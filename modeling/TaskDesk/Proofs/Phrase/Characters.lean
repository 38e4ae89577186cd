import TaskDesk.Proofs.Phrase.Reading

/-!
# Characters that a phrase needs

Some phrases are told apart by a character. The pieces of one have it, each of them, and
those of the other one do not.

Results:
* `Uses.of_find?`: the characters of a piece that is found.
* `find?_eq_none_of_needs`: a phrase is not found where a character is missing that it
  needs.
-/

namespace TaskDesk
namespace Phrase

/-- All characters of the pieces of the phrase pass the test. -/
def Uses (test : CodePoint → Bool) : Phrase → Prop
  | nothing => True
  | here _ => True
  | one passes => ∀ c, passes c = true → test c = true
  | many passes _ _ => ∀ c, passes c = true → test c = true
  | seq first second => Uses test first ∧ Uses test second
  | either first second => Uses test first ∧ Uses test second

/-- Each piece of the phrase has a character that passes the test. -/
def Needs (test : CodePoint → Bool) : Phrase → Prop
  | nothing => False
  | here _ => False
  | one passes => ∀ c, passes c = true → test c = true
  | many passes least _ => 0 < least ∧ ∀ c, passes c = true → test c = true
  | seq first second => Needs test first ∨ Needs test second
  | either first second => Needs test first ∧ Needs test second

variable {test : CodePoint → Bool} {phrase : Phrase}

theorem Uses.of_mem_ends (h : Uses test phrase) {p q : Place} (hq : q ∈ phrase.ends p)
    {piece : Text} (hp : p.after = piece ++ q.after) : ∀ c ∈ piece, test c = true := by
  induction phrase generalizing p q piece with
  | nothing =>
    obtain rfl : piece = [] := by
      rw [ends, List.mem_singleton] at hq
      rw [hq] at hp
      exact List.self_eq_append_left.1 hp
    simp
  | here _ =>
    obtain rfl : piece = [] := by
      rw [(mem_ends_here.1 hq).1] at hp
      exact List.self_eq_append_left.1 hp
    simp
  | one passes =>
    obtain ⟨c, hc, hafter, -⟩ := mem_ends_one.1 hq
    obtain rfl : piece = [c] := List.append_cancel_right (hp.symm.trans hafter)
    simpa using h c hc
  | many passes least most =>
    obtain ⟨read, ⟨hpasses, -⟩, hafter, -⟩ := (reads_many passes least most p q).1 hq
    obtain rfl : piece = read := List.append_cancel_right (hp.symm.trans hafter)
    exact fun c hc => h c (hpasses c hc)
  | seq first second ih₁ ih₂ =>
    obtain ⟨r, hr, hq⟩ := mem_ends_seq.1 hq
    obtain ⟨x, hx, -⟩ := reaches_of_mem_ends first hr
    obtain ⟨y, hy, -⟩ := reaches_of_mem_ends second hq
    obtain rfl : piece = x ++ y := by
      rw [hx, hy, ← List.append_assoc] at hp
      exact (List.append_cancel_right hp).symm
    exact List.forall_mem_append.2 ⟨ih₁ h.1 hr hx, ih₂ h.2 hq hy⟩
  | either first second ih₁ ih₂ =>
    rcases mem_ends_either.1 hq with hq | hq
    · exact ih₁ h.1 hq hp
    · exact ih₂ h.2 hq hp

theorem Needs.of_mem_ends (h : Needs test phrase) {p q : Place} (hq : q ∈ phrase.ends p) :
    ∃ c ∈ p.after, test c = true := by
  induction phrase generalizing p q with
  | nothing => exact absurd h id
  | here _ => exact absurd h id
  | one passes =>
    obtain ⟨c, hc, hafter, -⟩ := mem_ends_one.1 hq
    exact ⟨c, by simp [hafter], h c hc⟩
  | many passes least most =>
    obtain ⟨read, ⟨hpasses, hleast, -⟩, hafter, -⟩ := (reads_many passes least most p q).1 hq
    obtain ⟨c, hc⟩ := List.exists_mem_of_length_pos (h.1.trans_le hleast)
    exact ⟨c, by simp [hafter, hc], h.2 c (hpasses c hc)⟩
  | seq first second ih₁ ih₂ =>
    obtain ⟨r, hr, hq⟩ := mem_ends_seq.1 hq
    obtain ⟨x, hx, -⟩ := reaches_of_mem_ends first hr
    rcases h with h | h
    · exact ih₁ h hr
    · obtain ⟨c, hc, htest⟩ := ih₂ h hq
      exact ⟨c, by simp [hx, hc], htest⟩
  | either first second ih₁ ih₂ =>
    rcases mem_ends_either.1 hq with hq | hq
    · exact ih₁ h.1 hq
    · exact ih₂ h.2 hq

/-- The characters of a piece that is found. -/
theorem Uses.of_find? (h : Uses test phrase) {t : Text} {o : Occurrence}
    (ho : phrase.find? t = some o) : ∀ c ∈ o.piece, test c = true :=
  h.of_mem_ends (List.mem_of_head? (head?_ends_of_findFrom ho)) rfl

/-- A phrase is not found in a text that lacks a character it needs. -/
theorem find?_eq_none_of_needs (h : Needs test phrase) {t : Text}
    (ht : ∀ c ∈ t, test c = false) : phrase.find? t = none := by
  cases ho : phrase.find? t with
  | none => rfl
  | some o =>
    obtain ⟨c, hc, htest⟩ := h.of_mem_ends (List.mem_of_head? (head?_ends_of_findFrom ho))
    have hmem : c ∈ t := by
      rw [← find?_append ho, List.append_assoc]
      exact List.mem_append_right _ hc
    exact absurd htest (by simp [ht c hmem])

/-- A phrase is not found in the piece of one that lacks the character it needs. -/
theorem Uses.find?_piece {other : Phrase} (h : Uses (fun c => !test c) phrase)
    (hother : Needs test other) {t : Text} {o : Occurrence} (ho : phrase.find? t = some o) :
    other.find? o.piece = none :=
  find?_eq_none_of_needs hother fun c hc => by simpa using h.of_find? ho c hc

theorem uses_oneOf {phrases : List Phrase} (h : ∀ phrase ∈ phrases, Uses test phrase) :
    Uses test (oneOf phrases) := by
  induction phrases with
  | nil => exact trivial
  | cons phrase more ih =>
    cases more with
    | nil => exact h phrase (by simp)
    | cons next more =>
      exact ⟨h phrase (by simp), ih fun other hother => h other (List.mem_cons_of_mem _ hother)⟩

theorem uses_letters {t : Text} (h : ∀ c ∈ t, ∀ d, foldLetter d = c → test d = true) :
    Uses test (letters t) := by
  induction t with
  | nil => exact trivial
  | cons c rest ih =>
    exact ⟨fun d hd => h c (by simp) d (eq_of_beq hd),
      ih fun e he => h e (List.mem_cons_of_mem _ he)⟩

theorem needs_letters {t : Text} {c : CodePoint} (hc : c ∈ t)
    (h : ∀ d, foldLetter d = c → test d = true) : Needs test (letters t) := by
  induction t with
  | nil => cases hc
  | cons d rest ih =>
    rcases List.mem_cons.1 hc with rfl | hc
    · exact .inl fun e he => h e (eq_of_beq he)
    · exact .inr (ih hc)

end Phrase
end TaskDesk
