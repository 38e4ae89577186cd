import TaskDesk.Text.Basic

/-!
# Blanks

Blanks separate words: the space, the control characters for tabulation, line,
page and record ends, and the spaces and separators of other scripts. The
zero-width space and the byte order mark are no blanks.

Results:
* `tokens_ne_nil`, `not_isBlank_of_mem_tokens`: a token is non-empty and holds
  no blank.
* `isBlank_collapse`: after collapsing, the only blank is the space.
-/

namespace TaskDesk

/-- Whether a code point is a blank. -/
def isBlank (c : CodePoint) : Bool :=
  let n := c.toNat
  (9 ≤ n && n ≤ 13) || (28 ≤ n && n ≤ 32) || n == 0x85 || n == 0xa0 || n == 0x1680 ||
    (0x2000 ≤ n && n ≤ 0x200a) || n == 0x2028 || n == 0x2029 || n == 0x202f || n == 0x205f ||
    n == 0x3000

namespace Text

/-- The text without the blanks at either end. -/
def trim (t : Text) : Text := trimBy isBlank t

/-- The pieces of a text between runs of blanks. -/
def tokens (t : Text) : List Text := runs (fun c => !isBlank c) t

/-- The text with every run of blanks made one space. -/
def collapse : Text → Text
  | [] => []
  | c :: rest =>
    if isBlank c then
      if rest.head?.any isBlank then collapse rest else ' ' :: collapse rest
    else c :: collapse rest

theorem tokens_ne_nil (t : Text) : ∀ w ∈ tokens t, w ≠ [] := runs_ne_nil _ t

theorem not_isBlank_of_mem_tokens (t : Text) : ∀ w ∈ tokens t, ∀ c ∈ w, isBlank c = false := by
  intro w hw c hc
  simpa using forall_of_mem_runs _ t w hw c hc

theorem isBlank_collapse (t : Text) : ∀ c ∈ collapse t, isBlank c = true → c = ' ' := by
  induction t with
  | nil => simp [collapse]
  | cons c rest ih =>
    unfold collapse
    split
    · split
      · exact ih
      · simpa using ih
    · rename_i hc
      intro d hd hb
      rcases List.mem_cons.1 hd with rfl | hd
      · exact absurd hb hc
      · exact ih d hd hb

end Text
end TaskDesk
