import Mathlib.Data.List.TakeWhile
import Mathlib.Tactic.Conv
import TaskDesk.Draft.Basic
import TaskDesk.Proofs.Text.Runs

/-!
# Words of a text

Blanks are no word characters, so trimming a text and collapsing its blanks keep
its words, and so does tidying it up as a whole. Digits of every script and all
variants of ASCII letters are word characters, so an expression that begins with
one of them begins with a word.

Results:
* `words_trim`, `words_collapse`, `words_tidy`: what keeps the words of a text.
* `filter_trim`, `filter_collapse`: what keeps the characters of a text that are no blanks.
* `isWord_of_isDigit`, `isWord_of_foldLetter`: what is a word character.
-/

namespace TaskDesk

/-! ## Word characters -/

/-- The numbers of the blanks. -/
def blankNumbers : List Nat :=
  List.range' 9 5 ++ List.range' 28 5 ++ [0x85, 0xa0, 0x1680] ++ List.range' 0x2000 11 ++
    [0x2028, 0x2029, 0x202f, 0x205f, 0x3000]

theorem toNat_mem_blankNumbers {c : CodePoint} (h : isBlank c = true) :
    c.toNat ∈ blankNumbers := by
  simp only [isBlank, Bool.or_eq_true, Bool.and_eq_true, decide_eq_true_eq, beq_iff_eq] at h
  simp only [blankNumbers, List.mem_append, List.mem_range'_1, List.mem_cons, List.not_mem_nil,
    or_false]
  omega

/-- What holds of the blanks one by one holds of every blank. -/
theorem forall_of_isBlank {p : CodePoint → Prop} (h : ∀ n ∈ blankNumbers, p (Char.ofNat n))
    {c : CodePoint} (hc : isBlank c = true) : p c := by
  have hmem := toNat_mem_blankNumbers hc
  cases c with
  | half n =>
    have hsmall : ∀ n ∈ blankNumbers, n < 0xd800 := by decide
    have := hsmall _ hmem
    simp only [CodePoint.toNat] at this
    omega
  | char c =>
    have hp := h c.toNat hmem
    rwa [Char.ofNat_toNat] at hp

theorem not_isWord_of_isBlank {c : CodePoint} (h : isBlank c = true) : isWord c = false :=
  forall_of_isBlank (p := fun c => isWord c = false) (by decide +kernel) h

theorem isWord_of_isDigit {c : CodePoint} (h : isDigit c = true) : isWord c = true := by
  have blocks : ∀ r ∈ digitBlocks, ∀ offset < r.2 + 1 - r.1,
      wordTree.contains (r.1 + offset) = true := by decide +kernel
  obtain ⟨value, hvalue⟩ := Option.isSome_iff_exists.1 h
  cases c with
  | half n => cases hvalue
  | char c =>
    simp only [digitValue?] at hvalue
    by_cases hascii : c.toNat < 128
    · rw [if_pos hascii] at hvalue
      by_cases hdigit : c.isDigit = true
      · exact isWord_of_isAlphanum c hascii (by simp [Char.isAlphanum, hdigit])
      · rw [if_neg hdigit] at hvalue
        cases hvalue
    · rw [if_neg hascii] at hvalue
      obtain ⟨⟨offset, label⟩, hfind, -⟩ := Option.map_eq_some_iff.1 hvalue
      obtain ⟨first, last, hmem, hlast, hn⟩ := RangeTree.find?_mem hfind
      have hrange : (first, last, label) ∈ digitBlocks.map fun r => (r.1, r.2, ()) := by
        rw [← RangeTree.toList_build 7 (digitBlocks.map fun r => (r.1, r.2, ()))]
        exact List.mem_append_left _ hmem
      obtain ⟨r, hr, heq⟩ := List.mem_map.1 hrange
      cases heq
      have hword := blocks r hr offset (by omega)
      rw [← hn] at hword
      simpa [isWord, hascii] using hword

theorem not_isBlank_of_isWord {c : CodePoint} (h : isWord c = true) : isBlank c = false := by
  cases hblank : isBlank c with
  | false => rfl
  | true => rw [not_isWord_of_isBlank hblank] at h; cases h

theorem not_isDigit_of_isBlank {c : CodePoint} (h : isBlank c = true) : isDigit c = false := by
  cases hdigit : isDigit c with
  | false => rfl
  | true => rw [not_isBlank_of_isWord (isWord_of_isDigit hdigit)] at h; cases h

theorem toNat_lt_of_isAlpha {c : Char} (h : c.isAlpha = true) : c.toNat < 128 := by
  change (c.isUpper || c.isLower) = true at h
  rcases Bool.or_eq_true_iff.1 h with hupper | hlower
  · have hle : c.val ≤ 'Z'.val := (of_decide_eq_true hupper).2
    have : c.toNat ≤ 90 := UInt32.le_iff_toNat_le.1 hle
    omega
  · have hle : c.val ≤ 'z'.val := of_decide_eq_true (Bool.and_eq_true_iff.1 hlower).2
    have : c.toNat ≤ 122 := UInt32.le_iff_toNat_le.1 hle
    omega

theorem isAlpha_of_toLower {c : Char} (h : c.toLower.isAlpha = true) : c.isAlpha = true := by
  by_cases hc : c.val ≥ 'A'.val ∧ c.val ≤ 'Z'.val
  · have hupper : c.isUpper = true := decide_eq_true hc
    show (c.isUpper || c.isLower) = true
    rw [hupper, Bool.true_or]
  · have hfix : c.toLower = c := dif_neg hc
    rwa [hfix] at h

/-- All variants of an ASCII letter are word characters. -/
theorem isWord_of_foldLetter {c : Char} (hc : c.isAlpha = true) {d : CodePoint}
    (h : foldLetter d = c) : isWord d = true := by
  cases d with
  | half n => cases h
  | char d =>
    have variants : isWord '\u0130' = true ∧ isWord '\u0131' = true ∧ isWord '\u017f' = true ∧
        isWord '\u212a' = true := by decide +kernel
    obtain ⟨hdotted, hdotless, hlong, hkelvin⟩ := variants
    simp only [foldLetter] at h
    by_cases hi : d = '\u0130' ∨ d = '\u0131'
    · rcases hi with rfl | rfl
      · exact hdotted
      · exact hdotless
    · rw [if_neg hi] at h
      by_cases hs : d = '\u017f'
      · subst hs
        exact hlong
      · rw [if_neg hs] at h
        by_cases hk : d = '\u212a'
        · subst hk
          exact hkelvin
        · rw [if_neg hk] at h
          have hd : d.isAlpha = true := isAlpha_of_toLower (by rw [CodePoint.char.inj h]; exact hc)
          exact isWord_of_isAlphanum d (toNat_lt_of_isAlpha hd) (by simp [Char.isAlphanum, hd])

namespace Text

/-! ## What keeps the words -/

theorem words_append_of_not_word {s t : Text} (h : ∀ c ∈ s, isWord c = false) :
    words (s ++ t) = words t := by
  induction s with
  | nil => rfl
  | cons c s ih =>
    rw [words, List.cons_append, runs_cons_of_not (h c (by simp))]
    exact ih fun d hd => h d (by simp [hd])

theorem trimBy_append (test : CodePoint → Bool) (t : Text) :
    ∃ before after, t = before ++ trimBy test t ++ after ∧ (∀ c ∈ before, test c = true) ∧
      ∀ c ∈ after, test c = true := by
  have hend := List.takeWhile_append_dropWhile (p := test) (l := (t.dropWhile test).reverse)
  refine ⟨t.takeWhile test, ((t.dropWhile test).reverse.takeWhile test).reverse, ?_, ?_, ?_⟩
  · rw [List.append_assoc, trimBy, ← List.reverse_append, hend, List.reverse_reverse,
      List.takeWhile_append_dropWhile]
  · intro c hc
    exact List.mem_takeWhile_imp hc
  · intro c hc
    exact List.mem_takeWhile_imp (List.mem_reverse.1 hc)

/-- What is left behind a run begins with a character that does not belong to it. -/
theorem head?_dropWhile (test : CodePoint → Bool) (t : Text) :
    (t.dropWhile test).head?.any test = false := by
  cases hdrop : (t.dropWhile test).head? with
  | none => rfl
  | some c => simpa [hdrop] using List.head?_dropWhile_not test t

/-- The last word of a text that ends with a word ends with its last character. -/
theorem getLast?_words {t : Text} (h : t.getLast?.any isWord = true) :
    ∃ w, (words t).getLast? = some w ∧ w.getLast? = t.getLast? := by
  have hsplit : (t.reverse.dropWhile isWord).reverse ++ (t.reverse.takeWhile isWord).reverse = t := by
    rw [← List.reverse_append, List.takeWhile_append_dropWhile, List.reverse_reverse]
  have hall : ∀ c ∈ (t.reverse.takeWhile isWord).reverse, isWord c = true := fun c hc =>
    List.mem_takeWhile_imp (List.mem_reverse.1 hc)
  have hne : (t.reverse.takeWhile isWord).reverse ≠ [] := by
    rw [← List.head?_reverse] at h
    cases hrev : t.reverse with
    | nil => simp [hrev] at h
    | cons c more =>
      rw [hrev] at h
      simp [show isWord c = true from h]
  have hbreak : (t.reverse.dropWhile isWord).reverse.getLast?.any isWord = false := by
    rw [List.getLast?_reverse]
    exact head?_dropWhile isWord t.reverse
  have hwords := runs_append (apart_of_last hbreak (t := (t.reverse.takeWhile isWord).reverse))
  rw [hsplit, runs_of_forall hne hall] at hwords
  refine ⟨_, by rw [words, hwords, List.getLast?_concat], ?_⟩
  conv_rhs => rw [← hsplit, List.getLast?_append]
  rw [List.getLast?_eq_some_getLast hne, Option.some_or]

/-- The last token of a text that ends with it, behind a blank or at the start. -/
theorem getLast?_tokens (front : Text) {w : Text}
    (hfront : front.getLast?.any (fun c => !isBlank c) = false) (hne : w ≠ [])
    (hw : ∀ c ∈ w, isBlank c = false) : (tokens (front ++ w)).getLast? = some w := by
  rw [tokens, runs_append (apart_of_last hfront), runs_of_forall hne fun c hc => by simp [hw c hc],
    List.getLast?_concat]

/-- Characters that are trimmed anyway do not matter at the end of a text. -/
theorem trimBy_append_of_forall {test : CodePoint → Bool} {rest : Text}
    (h : ∀ c ∈ rest, test c = true) (t : Text) : trimBy test (t ++ rest) = trimBy test t := by
  have hrest : rest.reverse.dropWhile test = [] :=
    List.dropWhile_eq_nil_iff.2 fun c hc => h c (List.mem_reverse.1 hc)
  rw [trimBy, trimBy, List.dropWhile_append]
  split
  · rename_i hempty
    rw [List.isEmpty_iff.1 hempty, List.dropWhile_eq_nil_iff.2 h]
  · rw [List.reverse_append, List.dropWhile_append, hrest]
    rfl

theorem takeWhile_append_of_head {p : CodePoint → Bool} {rest : Text} (h : rest.head?.any p = false)
    (t : Text) : (t ++ rest).takeWhile p = t.takeWhile p := by
  have hrest : rest.takeWhile p = [] := by
    cases rest with
    | nil => rfl
    | cons c rest => exact List.takeWhile_cons_of_neg (by simpa using h)
  rw [List.takeWhile_append, hrest]
  split
  · rename_i hall
    rw [List.append_nil]
    exact ((List.takeWhile_prefix p).eq_of_length hall).symm
  · rfl

theorem dropWhile_append_of_head {p : CodePoint → Bool} {rest : Text} (h : rest.head?.any p = false)
    (t : Text) : (t ++ rest).dropWhile p = t.dropWhile p ++ rest := by
  have hrest : rest.dropWhile p = rest := by
    cases rest with
    | nil => rfl
    | cons c rest => exact List.dropWhile_cons_of_neg (by simpa using h)
  rw [List.dropWhile_append, hrest]
  split
  · rename_i hempty
    rw [List.isEmpty_iff.1 hempty, List.nil_append]
  · rfl

/-- Nothing is trimmed where the first and the last character stay. -/
theorem trimBy_eq_self {test : CodePoint → Bool} {t : Text} (hfirst : t.head?.any test = false)
    (hlast : t.getLast?.any test = false) : trimBy test t = t := by
  have hkeeps {s : Text} (hs : s.head?.any test = false) : s.dropWhile test = s :=
    dropWhile_append_of_head hs []
  rw [← List.head?_reverse] at hlast
  rw [trimBy, hkeeps hfirst, hkeeps hlast, List.reverse_reverse]

/-- Trimming takes what stands around such a text. -/
theorem trimBy_between {test : CodePoint → Bool} {before t after : Text}
    (hbefore : ∀ c ∈ before, test c = true) (hfirst : t.head?.any test = false)
    (hlast : t.getLast?.any test = false) (hafter : ∀ c ∈ after, test c = true) :
    trimBy test (before ++ t ++ after) = t := by
  rw [trimBy_append_of_forall hafter, trimBy, List.dropWhile_append_of_pos hbefore, ← trimBy,
    trimBy_eq_self hfirst hlast]

/-- Trimming takes the blanks around a text without blanks. -/
theorem trim_between {before t after : Text} (hbefore : ∀ c ∈ before, isBlank c = true)
    (ht : ∀ c ∈ t, isBlank c = false) (hafter : ∀ c ∈ after, isBlank c = true) :
    trim (before ++ (t ++ after)) = t := by
  have hany {o : Option CodePoint} (ho : ∀ c ∈ o, c ∈ t) : o.any isBlank = false := by
    cases o with
    | none => rfl
    | some c => exact ht c (ho c rfl)
  rw [← List.append_assoc]
  exact trimBy_between hbefore (hany fun _ => List.mem_of_head?) (hany fun _ => List.mem_of_getLast?)
    hafter

/-- A run of a class ends where the next character does not belong to it. -/
theorem takeWhile_run {test : CodePoint → Bool} {run after : Text}
    (hrun : ∀ c ∈ run, test c = true) (hafter : after.head?.any test = false) :
    (run ++ after).takeWhile test = run := by
  rw [takeWhile_append_of_head hafter, List.takeWhile_eq_self_iff.2 hrun]

theorem dropWhile_run {test : CodePoint → Bool} {run after : Text}
    (hrun : ∀ c ∈ run, test c = true) (hafter : after.head?.any test = false) :
    (run ++ after).dropWhile test = after := by
  rw [dropWhile_append_of_head hafter, List.dropWhile_eq_nil_iff.2 hrun, List.nil_append]

theorem words_trimBy {test : CodePoint → Bool} (h : ∀ c, test c = true → isWord c = false)
    (t : Text) : words (trimBy test t) = words t := by
  obtain ⟨before, after, ht, hbefore, hafter⟩ := trimBy_append test t
  have hlast : Apart isWord (trimBy test t) after := by
    cases after with
    | nil => exact apart_nil_right _
    | cons c after => exact apart_of_head (by simpa using h c (hafter c (by simp)))
  have hnone : words after = [] := runs_eq_nil fun c hc => h c (hafter c hc)
  conv_rhs => rw [ht, List.append_assoc,
    words_append_of_not_word fun c hc => h c (hbefore c hc), words, runs_append hlast]
  rw [words] at hnone
  rw [hnone, List.append_nil]
  rfl

/-- Trimming keeps the words. -/
theorem words_trim (t : Text) : words (trim t) = words t :=
  words_trimBy (fun _ => not_isWord_of_isBlank) t

theorem head?_any_isWord_of_isBlank {t : Text} (h : t.head?.any isBlank = true) :
    t.head?.any isWord = false := by
  cases t with
  | nil => rfl
  | cons c t => exact not_isWord_of_isBlank h

theorem head?_collapse (t : Text) : (collapse t).head?.any isWord = t.head?.any isWord := by
  have hspace : isWord ' ' = false := by decide
  induction t with
  | nil => rfl
  | cons c t ih =>
    unfold collapse
    by_cases hc : isBlank c = true
    · have hword := not_isWord_of_isBlank hc
      rw [if_pos hc]
      by_cases ht : t.head?.any isBlank = true
      · rw [if_pos ht, ih, head?_any_isWord_of_isBlank ht]
        simp [hword]
      · rw [if_neg ht]
        simp [hword, hspace]
    · rw [if_neg hc]
      rfl

/-- Collapsing the blanks keeps the words. -/
theorem words_collapse (t : Text) : words (collapse t) = words t := by
  have hspace : isWord ' ' = false := by decide
  unfold words
  induction t with
  | nil => rfl
  | cons c t ih =>
    unfold collapse
    by_cases hc : isBlank c = true
    · rw [if_pos hc, runs_cons_of_not (not_isWord_of_isBlank hc), ← ih]
      split
      · rfl
      · exact runs_cons_of_not hspace _
    · rw [if_neg hc, runs, runs, head?_collapse, ih]

/-- Trimming keeps what is no blank. -/
theorem filter_trim {p : CodePoint → Bool} (h : ∀ c, isBlank c = true → p c = false) (t : Text) :
    (trim t).filter p = t.filter p := by
  obtain ⟨before, after, ht, hbefore, hafter⟩ := trimBy_append isBlank t
  have hgone : ∀ {u : Text}, (∀ c ∈ u, isBlank c = true) → u.filter p = [] := fun hu =>
    List.filter_eq_nil_iff.2 fun c hc => by simp [h c (hu c hc)]
  conv_rhs => rw [ht, List.filter_append, List.filter_append, hgone hbefore, hgone hafter,
    List.append_nil, List.nil_append]
  rfl

/-- Collapsing blanks keeps what is no blank. -/
theorem filter_collapse {p : CodePoint → Bool} (h : ∀ c, isBlank c = true → p c = false)
    (t : Text) : (collapse t).filter p = t.filter p := by
  have hspace : p ' ' = false := h ' ' (by decide)
  induction t with
  | nil => rfl
  | cons c t ih =>
    unfold collapse
    by_cases hc : isBlank c = true
    · rw [if_pos hc, List.filter_cons_of_neg (by simp [h c hc])]
      split
      · exact ih
      · rw [List.filter_cons_of_neg (by simp [hspace]), ih]
    · rw [if_neg hc, List.filter_cons, List.filter_cons, ih]

/-- Tidying up keeps the words. -/
theorem words_tidy (t : Text) : words (tidy t) = words t := by
  rw [tidy, words_trim, words_trimBy (by simp), words_collapse]

end Text
end TaskDesk
