import Mathlib.Data.List.Count
import Mathlib.Data.Prod.Lex
import TypedScript.Source.File

/-!
# Lines and positions

The lines of a file cover its content: a line starts at offset zero and after every line feed, and reaches up to
the line feed before the next one, or to the end. So the number of lines that start at or before an offset is one
more than the number of line feeds before it (`countP_lineStartsOf`), which is what the search among the starts
finds (`lineAt_eq`).

Offsets, lines and columns are words of 32 bits. The column of the greatest word is one more than a word can hold
if no line feed comes before it, and so is its line if nothing else does: `position_wraps`.

* `IsCountable`: line and column of an offset are words.
* `Locates`: a position is that of an offset.
* `position_locates`: positions are inverse to offsets and in their order, and the lines make up the content.
-/

namespace TypedScript.Source

/-! ### Starts of lines -/

/-- Lines start after line feeds. -/
theorem mem_offsetsAfterLineFeeds {off s : Nat} {content : List UInt8} (h : s ∈ offsetsAfterLineFeeds off content) :
    off < s ∧ s ≤ off + content.length ∧ content[s - off - 1]? = some lineFeed := by
  fun_induction offsetsAfterLineFeeds off content with
  | case1 => cases h
  | case2 off rest hlimit ih =>
    rcases List.mem_cons.1 h with rfl | h
    · simp
    · obtain ⟨hlt, hle, hfeed⟩ := ih h
      refine ⟨by omega, by rw [List.length_cons]; omega, ?_⟩
      rw [show s - off - 1 = s - (off + 1) - 1 + 1 by omega]
      exact hfeed
  | case3 => cases h
  | case4 off b rest hb ih =>
    obtain ⟨hlt, hle, hfeed⟩ := ih h
    refine ⟨by omega, by rw [List.length_cons]; omega, ?_⟩
    rw [show s - off - 1 = s - (off + 1) - 1 + 1 by omega]
    exact hfeed

theorem pairwise_offsetsAfterLineFeeds (off : Nat) (content : List UInt8) :
    (offsetsAfterLineFeeds off content).Pairwise (· < ·) := by
  fun_induction offsetsAfterLineFeeds off content with
  | case1 | case3 => exact .nil
  | case2 off rest hlimit ih => exact .cons (fun s hs => (mem_offsetsAfterLineFeeds hs).1) ih
  | case4 off b rest hb ih => exact ih

/-- As many lines start up to an offset as there are line feeds before it. -/
theorem countP_offsetsAfterLineFeeds (off k : Nat) (content : List UInt8) (hk : off + k < offsetLimit) :
    (offsetsAfterLineFeeds off content).countP (· ≤ off + k) = (content.take k).count lineFeed := by
  induction content generalizing off k with
  | nil => simp [offsetsAfterLineFeeds]
  | cons b rest ih =>
    cases k with
    | zero =>
      rw [List.take_zero, List.count_nil, List.countP_eq_zero]
      intro s hs
      have := (mem_offsetsAfterLineFeeds hs).1
      simpa using this
    | succ k =>
      have hrest := ih (off + 1) k (by omega)
      rw [Nat.add_right_comm] at hrest
      rw [List.take_succ_cons, List.count_cons]
      by_cases hb : b = lineFeed
      · simp only [offsetsAfterLineFeeds, if_pos hb, if_pos (show off + 1 < offsetLimit by omega), List.countP_cons]
        rw [← Nat.add_assoc, hrest]
        simp [hb]
      · simp only [offsetsAfterLineFeeds, if_neg hb]
        rw [← Nat.add_assoc, hrest]
        simp [hb]

theorem pairwise_lineStartsOf (content : List UInt8) : (lineStartsOf content).Pairwise (· < ·) :=
  .cons (fun _ hs => (mem_offsetsAfterLineFeeds hs).1) (pairwise_offsetsAfterLineFeeds 0 content)

theorem countP_lineStartsOf {off : Nat} (content : List UInt8) (hoff : off < offsetLimit) :
    (lineStartsOf content).countP (· ≤ off) = (content.take off).count lineFeed + 1 := by
  have h := countP_offsetsAfterLineFeeds 0 off content (by omega)
  rw [Nat.zero_add] at h
  simp [lineStartsOf, h]

/-! ### The line of an offset -/

/-- The place that is found by searching among numbers in order is that of the first one that is greater than
`off`. -/
theorem search_starts {starts : List Nat} (hsorted : starts.Pairwise (· < ·)) (off : Nat) :
    ∃ k, Order.search (fun i => (starts[i]?).any (· ≤ off)) 0 starts.length = k ∧ k ≤ starts.length ∧
      ∀ (i : Nat) (hi : i < starts.length), starts[i] ≤ off ↔ i < k := by
  have hany (i : Nat) (hi : i < starts.length) : (starts[i]?).any (fun s => s ≤ off) =
    decide (starts[i] ≤ off) := by
    rw [List.getElem?_eq_getElem hi, Option.any_some]
  have hmono (i j : Nat) (hij : i ≤ j) (hj : (starts[j]?).any (fun s => s ≤ off) = true) :
      (starts[i]?).any (fun s => s ≤ off) = true := by
    by_cases hlt : j < starts.length
    · rw [hany j hlt, decide_eq_true_eq] at hj
      rw [hany i (by omega), decide_eq_true_eq]
      rcases Nat.lt_or_eq_of_le hij with hij | rfl
      · exact Nat.le_trans (Nat.le_of_lt (List.pairwise_iff_getElem.1 hsorted i j _ hlt hij)) hj
      · exact hj
    · rw [List.getElem?_eq_none (by omega)] at hj
      cases hj
  obtain ⟨-, hle, hbelow, hfail⟩ := Order.search_spec hmono (Nat.zero_le starts.length)
  refine ⟨_, rfl, hle, fun i hi => ⟨fun hstart => ?_, fun hlt => ?_⟩⟩
  · refine Nat.lt_of_not_le fun hge => ?_
    have hat := hmono _ i hge (by rw [hany i hi]; exact decide_eq_true hstart)
    rw [hfail (by omega)] at hat
    cases hat
  · have hat := hbelow i (Nat.zero_le i) hlt
    rwa [hany i hi, decide_eq_true_eq] at hat

/-- The starts of the lines are those of the content. -/
def File.IsIndexed (f : File) : Prop := f.lineStarts = lineStartsOf f.content

section

variable {f : File} (hf : f.IsIndexed)
include hf

theorem File.IsIndexed.start_zero : f.lineStarts[0]? = some 0 := by
  rw [hf]
  rfl

/-- Lines start in order. -/
theorem File.IsIndexed.start_lt {i j s t : Nat} (hs : f.lineStarts[i]? = some s) (ht : f.lineStarts[j]? = some t)
    (hij : i < j) : s < t := by
  have hsorted : f.lineStarts.Pairwise (· < ·) := hf.symm ▸ pairwise_lineStartsOf f.content
  obtain ⟨hi, rfl⟩ := List.getElem?_eq_some_iff.1 hs
  obtain ⟨hj, rfl⟩ := List.getElem?_eq_some_iff.1 ht
  exact List.pairwise_iff_getElem.1 hsorted i j hi hj hij

/-- A line but the first follows a line feed. -/
theorem File.IsIndexed.lineFeed_of_start {n s : Nat} (hs : f.lineStarts[n + 1]? = some s) :
    0 < s ∧ s ≤ f.content.length ∧ f.content[s - 1]? = some lineFeed := by
  rw [hf] at hs
  obtain ⟨hpos, hle, hfeed⟩ := mem_offsetsAfterLineFeeds (List.mem_of_getElem? hs)
  exact ⟨hpos, by omega, by simpa using hfeed⟩

theorem File.IsIndexed.start_le {n s : Nat} (hs : f.lineStarts[n]? = some s) : s ≤ f.content.length := by
  cases n with
  | zero =>
    rw [hf.start_zero] at hs
    cases hs
    exact Nat.zero_le _
  | succ n => exact (hf.lineFeed_of_start hs).2.1

/-- A line starts at or before an offset if it is not after the line of the offset. -/
theorem File.IsIndexed.start_le_iff {i s : Nat} (off : Nat) (hs : f.lineStarts[i]? = some s) : s ≤ off ↔
    i < f.lineAt off := by
  obtain ⟨k, hk, -, hiff⟩ := search_starts (hf.symm ▸ pairwise_lineStartsOf f.content) off
  obtain ⟨hi, rfl⟩ := List.getElem?_eq_some_iff.1 hs
  rw [File.lineAt, hk]
  exact hiff i hi

theorem File.IsIndexed.lineAt_le (off : Nat) : f.lineAt off ≤ f.lineStarts.length := by
  obtain ⟨k, hk, hle, -⟩ := search_starts (hf.symm ▸ pairwise_lineStartsOf f.content) off
  rwa [File.lineAt, hk]

/-- The line of an offset is one more than the number of line feeds before it. -/
theorem File.IsIndexed.lineAt_eq {off : Nat} (hoff : off < offsetLimit) :
    f.lineAt off = (f.content.take off).count lineFeed + 1 := by
  have hle := hf.lineAt_le off
  have hbefore : (f.lineStarts.take (f.lineAt off)).countP (· ≤ off) =
    (f.lineStarts.take (f.lineAt off)).length := by
    refine List.countP_eq_length.2 fun s hs => ?_
    obtain ⟨i, hi, rfl⟩ := List.mem_take_iff_getElem.1 hs
    exact decide_eq_true ((hf.start_le_iff off (List.getElem?_eq_getElem _)).2 (by omega))
  have hafter : (f.lineStarts.drop (f.lineAt off)).countP (· ≤ off) = 0 := by
    refine List.countP_eq_zero.2 fun s hs => ?_
    obtain ⟨i, hi, rfl⟩ := List.mem_drop_iff_getElem.1 hs
    rw [decide_eq_true_eq, hf.start_le_iff off (List.getElem?_eq_getElem _)]
    omega
  have hcount : f.lineStarts.countP (· ≤ off) = f.lineAt off := by
    have hsplit := congrArg (List.countP (· ≤ off)) (List.take_append_drop (f.lineAt off) f.lineStarts)
    rw [List.countP_append, hbefore, hafter, List.length_take, Nat.min_eq_left hle] at hsplit
    exact hsplit.symm
  rw [← hcount, hf, countP_lineStartsOf _ hoff]

/-! ### The bytes of a line -/

theorem File.IsIndexed.start_le_lineEnd {n s : Nat} (hs : f.lineStarts[n]? = some s) :
    s ≤ f.lineEnd (n + 1) ∧ f.lineEnd (n + 1) ≤ f.content.length := by
  unfold File.lineEnd
  cases hnext : f.lineStarts[n + 1]? with
  | none => exact ⟨hf.start_le hs, Nat.le_refl _⟩
  | some next =>
    have hlt := hf.start_lt hs hnext (Nat.lt_succ_self n)
    have hle := hf.start_le hnext
    dsimp only
    omega

/-- A line has the bytes from its start to its end. -/
theorem File.IsIndexed.line_eq {n s : Nat} (hs : f.lineStarts[n]? = some s) :
    f.line (n + 1) = f.slice s (f.lineEnd (n + 1)) := by
  obtain ⟨hle, hlen⟩ := hf.start_le_lineEnd hs
  rw [File.line, if_neg (Nat.succ_ne_zero n), Nat.add_sub_cancel, hs]
  exact if_neg (by simp [hle, hlen])

theorem File.IsIndexed.length_line {n s : Nat} (hs : f.lineStarts[n]? = some s) :
    (f.line (n + 1)).length = f.lineEnd (n + 1) - s := by
  obtain ⟨hle, hlen⟩ := hf.start_le_lineEnd hs
  rw [hf.line_eq hs, File.slice, List.length_take, List.length_drop]
  omega

/-- The byte at an offset of a line. -/
theorem File.IsIndexed.getElem?_line {n s off : Nat} (hs : f.lineStarts[n]? = some s) (hle : s ≤ off)
    (hlt : off < f.lineEnd (n + 1)) : (f.line (n + 1))[off - s]? = f.content[off]? := by
  rw [hf.line_eq hs, File.slice, List.getElem?_take_of_lt (by omega), List.getElem?_drop, Nat.add_sub_cancel' hle]

/-- Where a line ends there is a line feed, unless the content ends. -/
theorem File.IsIndexed.getElem?_lineEnd {n : Nat} {b : UInt8} (hb : f.content[f.lineEnd (n + 1)]? = some b) :
    b = lineFeed := by
  unfold File.lineEnd at hb
  cases hnext : f.lineStarts[n + 1]? with
  | none =>
    rw [hnext, List.getElem?_eq_none (Nat.le_refl _)] at hb
    cases hb
  | some next =>
    rw [hnext, (hf.lineFeed_of_start hnext).2.2] at hb
    exact (Option.some.inj hb).symm

/-- The offsets of a line reach from its start to its end. -/
theorem File.IsIndexed.lineAt_eq_iff {n s : Nat} (off : Nat) (hs : f.lineStarts[n]? = some s)
    (hoff : off ≤ f.content.length) :
    f.lineAt off = n + 1 ↔ s ≤ off ∧ off ≤ f.lineEnd (n + 1) := by
  have hlt := (List.getElem?_eq_some_iff.1 hs).1
  have hle := hf.lineAt_le off
  rw [hf.start_le_iff off hs]
  unfold File.lineEnd
  cases hnext : f.lineStarts[n + 1]? with
  | none =>
    have hlen := List.getElem?_eq_none_iff.1 hnext
    dsimp only
    omega
  | some next =>
    have hpos := (hf.lineFeed_of_start hnext).1
    have hiff := hf.start_le_iff off hnext
    dsimp only
    omega

/-! ### Positions -/

/-- The offset is a word, and so are its line and its column: if it is the greatest word, there are line feeds
before it, but not only line feeds. -/
def IsCountable (content : List UInt8) (off : Nat) : Prop :=
  off + 1 < offsetLimit ∨ off + 1 = offsetLimit ∧ 0 < (content.take off).count lineFeed ∧
    (content.take off).count lineFeed < off

omit hf in
theorem IsCountable.lt {content : List UInt8} {off : Nat} (h : IsCountable content off) : off < offsetLimit := by
  rcases h with h | h <;> omega

/-- The position of an offset, from the start of its line. -/
theorem File.IsIndexed.position_eq {n s off : Nat} (hs : f.lineStarts[n]? = some s) (hline : f.lineAt off = n + 1)
    (hoff : IsCountable f.content off) : f.position off = ⟨n + 1, off - s + 1⟩ := by
  have hcount : f.lineAt off = _ := hf.lineAt_eq hoff.lt
  have htake : (f.content.take off).count lineFeed ≤ off :=
    Nat.le_trans List.count_le_length (List.length_take_le off f.content)
  have hfits : ¬ (n + 1 = 0 ∨ offsetLimit ≤ n + 1) := by
    rcases hoff with hoff | hoff <;> omega
  have hcolumn : off - s + 1 < offsetLimit := by
    rcases hoff with hoff | ⟨hoff, hpos, -⟩
    · omega
    · -- a line feed comes before the offset, so its line does not start at zero
      obtain ⟨n, rfl⟩ : ∃ m, n = m + 1 := ⟨n - 1, by omega⟩
      have hstart := (hf.lineFeed_of_start hs).1
      omega
  have hstart : f.lineStarts.getD n 0 = s := by rw [List.getD_eq_getElem?_getD, hs, Option.getD_some]
  rw [File.position, hline, if_neg (by simpa using hfits), Nat.add_sub_cancel, hstart, Nat.mod_eq_of_lt hcolumn]

/-- Every offset of the content lies in a line. -/
theorem File.IsIndexed.exists_line (off : Nat) : ∃ n s, f.lineStarts[n]? = some s ∧ f.lineAt off = n + 1 := by
  have hle := hf.lineAt_le off
  have hpos := (hf.start_le_iff off hf.start_zero).1 (Nat.zero_le off)
  exact ⟨f.lineAt off - 1, _, List.getElem?_eq_getElem (by omega), by omega⟩

/-- Lines follow one another, with line feeds between them. -/
theorem File.IsIndexed.intercalate_lines (m : Nat) {n s : Nat} (hs : f.lineStarts[n]? = some s)
    (hm : f.lineStarts.length = n + m + 1) :
    [lineFeed].intercalate ((List.range' n (m + 1)).map fun i => f.line (i + 1)) = f.content.drop s := by
  induction m generalizing n s with
  | zero =>
    have hend : f.lineEnd (n + 1) = f.content.length := by
      rw [File.lineEnd, List.getElem?_eq_none (by omega)]
    rw [List.range'_one, List.map_singleton, List.intercalate_singleton, hf.line_eq hs, File.slice, hend]
    exact List.take_of_length_le (by rw [List.length_drop])
  | succ m ih =>
    obtain ⟨next, hnext⟩ : ∃ next, f.lineStarts[n + 1]? = some next := ⟨_, List.getElem?_eq_getElem (by omega)⟩
    obtain ⟨hpos, -, hfeed⟩ := hf.lineFeed_of_start hnext
    have hlt := hf.start_lt hs hnext (Nat.lt_succ_self n)
    have hend : f.lineEnd (n + 1) = next - 1 := by rw [File.lineEnd, hnext]
    have hrest : f.content.drop (next - 1) = lineFeed :: f.content.drop next := by
      obtain ⟨hle, hget⟩ := List.getElem?_eq_some_iff.1 hfeed
      rw [List.drop_eq_getElem_cons hle, hget, Nat.sub_add_cancel hpos]
    have htail := ih hnext (by omega)
    rw [List.range'_succ, List.map_cons] at htail ⊢
    rw [List.range'_succ, List.map_cons, List.intercalate_cons_cons, htail, hf.line_eq hs, File.slice, hend]
    calc (f.content.drop s).take (next - 1 - s) ++ [lineFeed] ++ f.content.drop next
      _ = (f.content.drop s).take (next - 1 - s) ++ (f.content.drop s).drop (next - 1 - s) := by
        rw [List.drop_drop, Nat.add_sub_cancel' (by omega), hrest, List.append_assoc, List.singleton_append]
      _ = f.content.drop s := List.take_append_drop _ _

end

/-- The position is that of the offset: its line, counted by the line feeds before the offset, starts as many
bytes before it as its column says, and holds the byte at the offset there or ends there with a line feed. -/
structure Locates (f : File) (off : Nat) (p : Position) : Prop where
  line_eq : p.line = (f.content.take off).count lineFeed + 1
  line_le : p.line ≤ f.lineStarts.length
  column_pos : 1 ≤ p.column
  start : ∃ s, f.lineStarts[p.line - 1]? = some s ∧ s + p.column - 1 = off
  column_le : p.column - 1 ≤ (f.line p.line).length
  byte : ∀ b, f.content[off]? = some b →
    (f.line p.line)[p.column - 1]? = some b ∨ p.column - 1 = (f.line p.line).length ∧ b = lineFeed

theorem File.IsIndexed.locates {f : File} (hf : f.IsIndexed) {off : Nat} (hle : off ≤ f.content.length)
    (hoff : IsCountable f.content off) : Locates f off (f.position off) := by
  obtain ⟨n, s, hs, hline⟩ := hf.exists_line off
  obtain ⟨hstart, hend⟩ := (hf.lineAt_eq_iff off hs hle).1 hline
  have hlength := hf.length_line hs
  rw [hf.position_eq hs hline hoff]
  refine ⟨?_, ?_, Nat.le_add_left 1 _, ⟨s, hs, ?_⟩, ?_, fun b hb => ?_⟩
  · rw [← hline, hf.lineAt_eq hoff.lt]
  · exact hline ▸ hf.lineAt_le off
  · dsimp only
    omega
  · dsimp only
    omega
  · dsimp only
    rw [Nat.add_sub_cancel]
    rcases Nat.lt_or_eq_of_le hend with hlt | heq
    · exact .inl ((hf.getElem?_line hs hstart hlt).trans hb)
    · exact .inr ⟨by omega, hf.getElem?_lineEnd (heq ▸ hb)⟩

/-- Later offsets have later positions. -/
theorem File.IsIndexed.position_lt {f : File} (hf : f.IsIndexed) {off off' : Nat} (hlt : off < off')
    (hle : off' ≤ f.content.length) (hoff : IsCountable f.content off') :
    toLex ((f.position off).line, (f.position off).column) < toLex
      ((f.position off').line, (f.position off').column) := by
  obtain ⟨n, s, hs, hline⟩ := hf.exists_line off
  obtain ⟨n', s', hs', hline'⟩ := hf.exists_line off'
  obtain ⟨hstart, hend⟩ := (hf.lineAt_eq_iff off hs (by omega)).1 hline
  have hlimit := hoff.lt
  rw [hf.position_eq hs hline (.inl (by omega)), hf.position_eq hs' hline' hoff, Prod.Lex.toLex_lt_toLex]
  dsimp only
  rcases Nat.lt_trichotomy n n' with hn | rfl | hn
  · exact .inl (by omega)
  · obtain rfl : s = s' := Option.some.inj (hs.symm.trans hs')
    exact .inr ⟨rfl, by omega⟩
  · -- the line of the later offset starts before that of the earlier one
    have := (hf.start_le_iff off' hs).1 (by omega)
    omega

/-- The offset of a position that lies in its line has that position. -/
theorem File.IsIndexed.position_of_offset? {f : File} (hf : f.IsIndexed) {p : Position} {off : Nat}
    (hp : f.offset? p = some off) (hcolumn : 1 ≤ p.column) (hin : p.column - 1 ≤ (f.line p.line).length)
    (hoff : IsCountable f.content off) : f.position off = p := by
  obtain ⟨line, column⟩ := p
  cases line with
  | zero => cases hp
  | succ n =>
    obtain ⟨s, hs, rfl⟩ : ∃ s, f.lineStarts[n]? = some s ∧ s + (column - 1) = off := Option.map_eq_some_iff.1 hp
    obtain ⟨hle, hlen⟩ := hf.start_le_lineEnd hs
    dsimp only at hcolumn hin hoff ⊢
    rw [hf.length_line hs] at hin
    have hat := (hf.lineAt_eq_iff (s + (column - 1)) hs (by omega)).2 ⟨by omega, by omega⟩
    rw [hf.position_eq hs hat hoff, Nat.add_sub_cancel_left, Nat.sub_add_cancel hcolumn]

theorem Locates.offset?_eq {f : File} {off : Nat} {p : Position} (h : Locates f off p) :
    f.offset? p = some off := by
  obtain ⟨s, hs, rfl⟩ := h.start
  have hcolumn := h.column_pos
  rw [File.offset?, if_neg (by rw [h.line_eq]; exact Nat.succ_ne_zero _), hs, Option.map_some,
    Nat.add_sub_assoc hcolumn]

/-- Positions are inverse to offsets, and in the order of offsets; the lines, with line feeds between them, make
up the content. -/
theorem position_locates (id : Nat) (path : String) (content : List UInt8) (flags : Flags) :
    let f := File.ofContent id path content flags
    (∀ off ≤ content.length, IsCountable content off →
      Locates f off (f.position off) ∧ f.offset? (f.position off) = some off) ∧
    (∀ off off', off < off' → off' ≤ content.length → IsCountable content off' →
      toLex ((f.position off).line, (f.position off).column) <
        toLex ((f.position off').line, (f.position off').column)) ∧
    (∀ p off, f.offset? p = some off → 1 ≤ p.column → p.column - 1 ≤ (f.line p.line).length →
    IsCountable content off →
      f.position off = p) ∧
    [lineFeed].intercalate ((List.range f.lineStarts.length).map fun i => f.line (i + 1)) = content := by
  intro f
  have hf : f.IsIndexed := rfl
  refine ⟨fun off hle hoff => ?_, fun off off' hlt hle hoff => ?_, fun p off hp hcolumn hin hoff => ?_, ?_⟩
  · have hlocates := hf.locates hle hoff
    exact ⟨hlocates, hlocates.offset?_eq⟩
  · exact hf.position_lt hlt hle hoff
  · exact hf.position_of_offset? hp hcolumn hin hoff
  · have hpos := (List.getElem?_eq_some_iff.1 hf.start_zero).1
    rw [List.range_eq_range', ← Nat.sub_add_cancel hpos]
    exact hf.intercalate_lines _ hf.start_zero (by omega)

/-- The line feed of an empty line comes before the end of a last line that no line feed ends. -/
theorem position_locates_of_emptyLine :
    let content : List UInt8 := [97, 10, 10, 98]
    let f := File.ofContent 0 "m.ts" content 0
    2 < 4 ∧ 4 ≤ content.length ∧ IsCountable content 4 ∧ f.offset? ⟨2, 1⟩ = some 2 ∧ f.offset? ⟨3, 2⟩ = some 4 ∧
      f.position 2 = ⟨2, 1⟩ ∧ Locates f 4 ⟨3, 2⟩ ∧
      toLex ((f.position 2).line, (f.position 2).column) < toLex ((f.position 4).line, (f.position 4).column) := by
  intro content f
  obtain ⟨hlocates, hlt, hinverse, -⟩ := position_locates 0 "m.ts" content 0
  have hcountable : IsCountable content 4 := .inl (by decide)
  have hmiddle : f.position 2 = ⟨2, 1⟩ := hinverse ⟨2, 1⟩ 2 rfl (by decide) (by decide) (.inl (by decide))
  have hlast : f.position 4 = ⟨3, 2⟩ := hinverse ⟨3, 2⟩ 4 rfl (by decide) (by decide) hcountable
  have hat := (hlocates 4 (by decide) hcountable).1
  rw [show (File.ofContent 0 "m.ts" content 0).position 4 = ⟨3, 2⟩ from hlast] at hat
  exact ⟨by decide, by decide, hcountable, rfl, rfl, hmiddle, hat, hlt 2 4 (by decide) (by decide) hcountable⟩

/-- Without line feeds there is one line. -/
theorem position_of_notMem (id : Nat) (path : String) (flags : Flags) {content : List UInt8}
    (h : lineFeed ∉ content) {off : Nat} (hoff : off < offsetLimit) :
    (File.ofContent id path content flags).position off = ⟨1, (off + 1) % offsetLimit⟩ := by
  have hf : (File.ofContent id path content flags).IsIndexed := rfl
  have hnone : lineFeed ∉ content.take off := fun hmem => h (List.mem_of_mem_take hmem)
  have hline : (File.ofContent id path content flags).lineAt off = 1 := by
    rw [hf.lineAt_eq hoff]
    exact congrArg (· + 1) (List.count_eq_zero.2 hnone)
  have hstart : (File.ofContent id path content flags).lineStarts.getD 0 0 = 0 := rfl
  have hfits : ¬ (decide (1 = 0) || decide (offsetLimit ≤ 1)) = true := by decide
  rw [File.position, hline, if_neg hfits, hstart, Nat.sub_zero]

/-- At the greatest word the column wraps around, if no line feed comes before it: the offset is not found again
from its position, which comes before the position of the offset before it. -/
theorem position_wraps :
    let content : List UInt8 := List.replicate 4294967295 97
    let f := File.ofContent 0 "m.ts" content 0
    4294967295 ≤ content.length ∧ 4294967295 < offsetLimit ∧ f.position 4294967295 = ⟨1, 0⟩ ∧
      ¬ Locates f 4294967295 (f.position 4294967295) ∧
      ¬ toLex ((f.position 4294967294).line, (f.position 4294967294).column) <
        toLex ((f.position 4294967295).line, (f.position 4294967295).column) := by
  intro content f
  have hnone : lineFeed ∉ content := by
    intro hmem
    exact absurd (List.eq_of_mem_replicate hmem) (by decide)
  have hlast : f.position 4294967295 = ⟨1, 0⟩ := position_of_notMem 0 "m.ts" 0 hnone (by decide)
  have hbefore : f.position 4294967294 = ⟨1, 4294967295⟩ := position_of_notMem 0 "m.ts" 0 hnone (by decide)
  refine ⟨?_, by decide, hlast, fun hlocates => ?_, ?_⟩
  · rw [List.length_replicate]
  · rw [hlast] at hlocates
    exact absurd hlocates.column_pos (by decide)
  · rw [hlast, hbefore, Prod.Lex.toLex_lt_toLex]
    decide

end TypedScript.Source
