import TaskDesk.Proofs.Completion.Exclusive
import TaskDesk.Proofs.Phrase.Cutting

/-!
# What a keyword leaves untouched

The keywords of a category are cut one after the other, each out of what the earlier ones
have left. Cutting one of them brings no piece together that was not in one place before,
so all that is cut, taken together, are pieces of the input itself, side by side. Between
them the words and signs of the input are kept in their order.

Results:
* `IsTable.strip_append`: a table is cut part by part.
* `IsTable.exists_cutting`: all that is cut for a table are pieces of the text.
* `Completion.exists_cutting_of_apply`: what is left of the input after a keyword has been
  chosen.
-/

namespace TaskDesk

open Completion Phrase
open Text (fold words)

/-- The character belongs to no word and is no blank. -/
def isSign (c : CodePoint) : Bool := !isWord c && !isBlank c

theorem not_isSign_of_isBlank {c : CodePoint} (h : isBlank c = true) : isSign c = false := by
  simp [isSign, h]

namespace Category

/-- A piece that spells a keyword has no signs. -/
theorem not_isSign_of_fold {c : Category} {piece : Text} (h : fold piece ∈ c.keywords)
    {d : CodePoint} (hd : d ∈ piece) : isSign d = false := by
  have checked : ∀ k ∈ c.keywords, ∀ e ∈ k, isWord e = true ∨ e = ' ' := by
    cases c <;> decide +kernel
  rcases checked _ h _ (List.mem_map_of_mem hd) with hword | hspace
  · rw [isWord_foldLetter] at hword
    simp [isSign, hword]
  · rw [foldLetter_eq_space hspace]
    decide

end Category

namespace Completion
namespace IsTable

variable {table ks : List Text} {s t : Text}

/-- What spells a keyword of a table begins and ends with a word. -/
theorem wordEnds (h : IsTable table) (hks : ∀ k ∈ ks, k ∈ table) : WordEnds (fold · ∈ ks) :=
  ⟨fun piece hpiece => (h.reads (hks _ hpiece)).first piece rfl,
    fun piece hpiece => (h.reads (hks _ hpiece)).last piece rfl⟩

/-- Between characters that belong to no word a text can be taken apart before the keywords
    of a table are cut. -/
theorem strip_append (h : IsTable table) (hks : ∀ k ∈ ks, k ∈ table)
    (hs : s.getLast?.any isWord = false) (ht : t.head?.any isWord = false) :
    strip ks (s ++ t) = strip ks s ++ strip ks t := by
  induction ks generalizing s t with
  | nil => rfl
  | cons k ks ih =>
    have hk : k ∈ table := hks k List.mem_cons_self
    have hread := h.reads hk
    rw [strip, List.foldl_cons, hread.eraseAll_append (h.isTight hk) hs ht]
    exact ih (fun k hk => hks k (List.mem_cons_of_mem _ hk)) (hread.getLast?_eraseAll hs)
      (hread.head?_eraseAll ht)

/-- **All that is cut** for the keywords of a table, one keyword after the other, are pieces
    that stand side by side in the text itself. -/
theorem exists_cutting (h : IsTable table) (hks : ∀ k ∈ ks, k ∈ table) (t : Text) :
    ∃ cutting : Cutting, cutting.whole = t ∧ cutting.rest = strip ks t ∧
      cutting.IsOf (fold · ∈ ks) := by
  induction ks generalizing t with
  | nil => exact ⟨⟨t, []⟩, List.append_nil t, List.append_nil t, fun o ho => nomatch ho⟩
  | cons k ks ihks =>
    have hks' : ∀ k ∈ ks, k ∈ table := fun k hk => hks k (List.mem_cons_of_mem _ hk)
    have hread := h.reads (hks k List.mem_cons_self)
    have hwiden : ∀ piece, fold piece ∈ ks → fold piece ∈ k :: ks := fun _ hpiece =>
      List.mem_cons_of_mem _ hpiece
    -- Before the first piece of `k` only the keywords after `k` are cut; what is behind the
    -- piece is a shorter text, of which all are cut.
    induction hn : t.length using Nat.strong_induction_on generalizing t with
    | _ n ih =>
    subst hn
    cases hfind : (keyword k).find? t with
    | none =>
      obtain ⟨cutting, hwhole, hrest, hof⟩ := ihks hks' t
      refine ⟨cutting, hwhole, ?_, hof.mono hwiden⟩
      rw [strip, List.foldl_cons, hread.eraseAll_of_absent (hread.find?_eq_none_iff.1 hfind)]
      exact hrest
    | some o =>
      obtain ⟨ho, -⟩ := hread.stands_of_find? hfind
      have hlength := congrArg List.length ho.text
      have hpos : 0 < o.piece.length := List.length_pos_iff.2 (hread.ne_nil ho.piece)
      simp only [List.length_append] at hlength
      obtain ⟨left, hleft, hleftRest, hleftOf⟩ := ihks hks' o.before
      obtain ⟨right, hright, hrightRest, hrightOf⟩ := ih o.after.length (by omega) o.after rfl
      refine ⟨left.around o.piece right, ?_, ?_, ?_⟩
      · rw [Cutting.whole_around, hleft, hright, ho.text]
      · have hcut : strip (k :: ks) t = strip ks (o.before ++ (keyword k).eraseAll o.after) := by
          rw [strip, List.foldl_cons, hread.eraseAll_of_find? hfind]
          rfl
        rw [Cutting.rest_around, hleftRest, hrightRest, hcut,
          h.strip_append hks' ho.before (hread.head?_eraseAll ho.after)]
        rfl
      · exact (hleftOf.mono hwiden).around (h.wordEnds hks) hrightOf
          (List.mem_cons.2 (.inl ho.piece)) (hleft ▸ ho.before) (hright ▸ ho.after)

end IsTable

variable {c : Category} {chosen : Text}

/-- **What a keyword leaves untouched.** The input is cut into pieces that spell keywords of
    the category, between which it is kept. The keyword follows the tidied rest. The words of
    the rest are the words of the input without those of the pieces, and its signs are all the
    signs of the input. -/
theorem exists_cutting_of_apply (h : Category.ofKeyword? chosen = some c) (input : Text)
    (names : List Text) :
    ∃ cutting : Cutting, cutting.whole = input ∧ cutting.IsOf (fold · ∈ c.keywords) ∧
      let base := Text.trim (Text.collapse cutting.rest)
      (apply .create input chosen names).text =
          (if base = [] then chosen else base ++ " ".toText ++ chosen) ++ " ".toText ∧
        words input =
          words cutting.front ++ cutting.cuts.flatMap (fun cut => words cut.1 ++ words cut.2) ∧
        words base = words cutting.front ++ cutting.cuts.flatMap (fun cut => words cut.2) ∧
        base.filter isSign = input.filter isSign := by
  obtain ⟨cutting, rfl, hrest, hof⟩ :=
    c.isTable.exists_cutting (fun k => Category.mem_keywords_of_mem_table) input
  have hkeywords : cutting.IsOf (fold · ∈ c.keywords) :=
    hof.mono fun _ => Category.mem_keywords_of_mem_table
  have hbase : withoutKeywords c cutting.whole = Text.trim (Text.collapse cutting.rest) := by
    rw [withoutKeywords_eq_strip, hrest]
  refine ⟨cutting, rfl, hkeywords, ?_, Cutting.words_whole hkeywords.isApart, ?_, ?_⟩
  · simp only [apply, h, hbase, List.isEmpty_iff]
  · rw [Text.words_trim, Text.words_collapse, Cutting.words_rest hkeywords.isApart]
  · rw [Text.filter_trim fun _ => not_isSign_of_isBlank,
      Text.filter_collapse fun _ => not_isSign_of_isBlank]
    exact Cutting.filter_rest fun o ho d hd => Category.not_isSign_of_fold (hkeywords o ho).piece hd

theorem exists_cutting_of_apply_call :
    Category.ofKeyword? "Tomorrow".toText = some .date ∧
      (apply .create "call, next Monday (today)!".toText "Tomorrow".toText []).text =
        "call, ()! Tomorrow ".toText ∧
      ∃ cutting : Cutting, cutting.whole = "call, next Monday (today)!".toText ∧
        cutting.IsOf (fold · ∈ Category.date.keywords) ∧
        (Text.trim (Text.collapse cutting.rest)).filter isSign = ",()!".toText := by
  have hchosen : Category.ofKeyword? "Tomorrow".toText = some .date := by decide
  obtain ⟨cutting, hwhole, hof, -, -, -, hsigns⟩ :=
    exists_cutting_of_apply hchosen "call, next Monday (today)!".toText []
  exact ⟨hchosen, by decide +kernel, cutting, hwhole, hof, hsigns.trans (by decide +kernel)⟩

end Completion
end TaskDesk
