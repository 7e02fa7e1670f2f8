import TypedScript.Proofs.Ast.Grammar
import TypedScript.Proofs.Token.Spans

/-!
# What a parser writes

The parts of a node stand within it, one after another, and in no other node. A parser holds what it has come
across and not yet used, in source order: places that it looked at, tokens that it took and nodes that it wrote. A
node that it writes spans what it uses, so it stands behind everything else that is held. Its name is the text of
an identifier, if it is not that of a fixed type, so what holds of all identifiers holds of all names.

* `Neat`: how a node and its parts stand.
* `Held`: what a parser has written, and what it holds.
* `Does.lays`: a parser that follows the rules uses what they say, whatever else is held before it.
* `forest_parse`, `neat_parse`, `name_parse`: the nodes of a file, whatever is wrong with the file.
-/

namespace TypedScript.Ast

open TypedScript.Source TypedScript.Token

/-- The span of the node with the number `id`. -/
def spanIn (nodes : Array Node) (id : Nat) : Span := (if id = 0 then none else nodes[id - 1]?).elim {} (·.span)

theorem spanIn_push {nodes : Array Node} {id : Nat} (h : id ≤ nodes.size) (n : Node) :
    spanIn (nodes.push n) id = spanIn nodes id := by
  unfold spanIn
  by_cases hid : id = 0
  · simp [hid]
  · rw [if_neg hid, if_neg hid, Array.getElem?_push, if_neg (by omega)]

theorem spanIn_push_size (nodes : Array Node) (n : Node) : spanIn (nodes.push n) (nodes.size + 1) = n.span := by
  simp [spanIn]

/-- The node stands within the file, its parts within it, one after another. Only a module may be empty. -/
structure Neat (file : File) (nodes : Array Node) (n : Node) : Prop where
  file_eq : n.span.file = file.id
  start_le : n.span.start ≤ n.span.stop
  stop_le : n.span.stop ≤ file.content.length
  start_lt : (∀ body, n.form ≠ .module body) → n.span.start < n.span.stop
  written : ∀ c ∈ n.form.children, 0 < c ∧ c ≤ nodes.size
  within : ∀ c ∈ n.form.children, n.span.start ≤ (spanIn nodes c).start ∧ (spanIn nodes c).stop ≤ n.span.stop
  solid : ∀ c ∈ n.form.children, (spanIn nodes c).start < (spanIn nodes c).stop
  ordered : n.form.children.Pairwise fun c d => (spanIn nodes c).stop ≤ (spanIn nodes d).start
  leads : n.form.declares = true → ∀ c ∈ n.form.children, n.span.start < (spanIn nodes c).start

theorem Neat.push {file : File} {nodes : Array Node} {n : Node} (h : Neat file nodes n) (m : Node) :
    Neat file (nodes.push m) n := by
  have hspan : ∀ c ∈ n.form.children, spanIn (nodes.push m) c = spanIn nodes c :=
    fun c hc => spanIn_push (h.written c hc).2 m
  refine { h with written := ?_, within := ?_, solid := ?_, ordered := ?_, leads := ?_ }
  · intro c hc
    have := h.written c hc
    rw [Array.size_push]
    omega
  · intro c hc
    rw [hspan c hc]
    exact h.within c hc
  · intro c hc
    rw [hspan c hc]
    exact h.solid c hc
  · refine h.ordered.imp_of_mem fun {c d} hc hd hcd => ?_
    rwa [hspan c hc, hspan d hd]
  · intro hdeclares c hc
    rw [hspan c hc]
    exact h.leads hdeclares c hc

namespace Parser

variable {α β : Type} {P : String → Prop} {i : Input} {s : State}

/-! ### What a parser holds -/

/-- The span that tokens have been taken from, up to the last one. -/
structure Passed (file : File) (last span : Span) : Prop where
  file_eq : span.file = file.id
  last_file : last.file = file.id
  start_le : span.start ≤ last.start
  stop_le : span.stop ≤ last.stop

namespace Piece

/-- The span of a piece; a place that was looked at is empty. -/
def span (nodes : Array Node) : Piece → Span
  | mark span => .point span.file span.start
  | token span => span
  | node _ id => spanIn nodes id

/-- The node that is held, with the place that it can take. -/
def part? : Piece → Option (Place × Nat)
  | node place id => some (place, id)
  | _ => none

/-- How a piece stands: what was looked at may still be at the front. -/
def Stands (file : File) (s : State) : Piece → Prop
  | mark span => span = s.peek.span ∨ Passed file s.last span
  | token span => Passed file s.last span ∧ span.start < span.stop
  | node _ id => 0 < id ∧ id ≤ s.nodes.size ∧ Passed file s.last (spanIn s.nodes id) ∧
      (spanIn s.nodes id).start < (spanIn s.nodes id).stop

end Piece

theorem part?_pieces (form : Form) : (pieces form).filterMap Piece.part? = form.parts := by
  simp [pieces, List.filterMap_map, Function.comp_def, Piece.part?]

theorem exists_mem_pieces {form : Form} {c : Nat} (hc : c ∈ form.children) : ∃ place, Piece.node place c ∈
    pieces form := by
  rw [← form.map_snd_parts] at hc
  obtain ⟨part, hpart, rfl⟩ := List.mem_map.1 hc
  exact ⟨part.1, List.mem_map.2 ⟨part, hpart, rfl⟩⟩

/-- The nodes that were written are a forest of neat nodes, and the pieces are held: they stand one after another,
and behind them the tokens that are left. Names and identifiers have the property. -/
structure Held (P : String → Prop) (i : Input) (s : State) (ps : List Piece) : Prop where
  tokens : Lined i.file.id i.file.content.length s.last.stop s.rest
  last : s.last.start ≤ s.last.stop
  idents : ∀ tok ∈ s.rest, tok.kind = .ident → P tok.text
  names : ∀ n ∈ s.nodes, P n.form.name
  nodes : ∀ n ∈ s.nodes, Neat i.file s.nodes n
  forest : Forest s.nodes (ps.filterMap Piece.part?)
  stands : ∀ p ∈ ps, p.Stands i.file s
  ordered : ps.Pairwise fun p q => (p.span s.nodes).stop ≤ (q.span s.nodes).start

/-- The last token comes before the one at the front. -/
theorem le_peek {file size : Nat} (h : Lined file size s.last.stop s.rest) :
    s.last.stop ≤ s.peek.span.start ∧ s.peek.span.start ≤ s.peek.span.stop ∧ s.peek.span.stop ≤ size ∧
      s.peek.span.file = file := by
  unfold State.peek
  generalize s.rest = rest at h
  cases h with
  | eof hle hkind hspan =>
    rw [List.headD_cons, hspan]
    exact ⟨hle, Nat.le_refl _, Nat.le_refl _, rfl⟩
  | cons hkind hfile hle hlt hrest => exact ⟨hle, Nat.le_of_lt hlt, hrest.le, hfile⟩

/-- What advancing does to tokens in line. -/
theorem advance_of_ne_eof {file size : Nat} (h : Lined file size s.last.stop s.rest) (hkind : s.peek.kind ≠ .eof) :
    s.peek.span.start < s.peek.span.stop ∧ Lined file size s.peek.span.stop s.rest.tail := by
  unfold State.peek at hkind ⊢
  generalize s.rest = rest at h hkind
  cases h with
  | eof hle heof hspan => exact absurd heof hkind
  | cons _ hfile hle hlt hrest => exact ⟨hlt, hrest⟩

/-- The span from one that was passed through the last token. -/
theorem Passed.cover_eq {file : File} {last span : Span} (h : Passed file last span) :
    span.cover last = ⟨file.id, span.start, last.stop⟩ := by
  unfold Span.cover
  rw [if_pos (h.file_eq.trans h.last_file.symm), h.file_eq, Nat.min_eq_left h.start_le, Nat.max_eq_right h.stop_le]

namespace Held

variable {ps qs : List Piece}

/-- Pieces may be given up. -/
theorem mono (h : Held P i s ps) (hsub : qs.Sublist ps) : Held P i s qs :=
  { h with
    forest := h.forest.mono (hsub.filterMap _).subperm
    stands := fun p hp => h.stands p (hsub.subset hp)
    ordered := h.ordered.sublist hsub }

/-- Every piece starts before the last token stops, or at the front. -/
theorem stop_le_peek (h : Held P i s ps) : ∀ p ∈ ps, (p.span s.nodes).stop ≤ s.peek.span.start := by
  intro p hp
  obtain ⟨hpeek, -⟩ := le_peek h.tokens
  have hlast := h.last
  have hstands := h.stands p hp
  cases p with
  | mark span =>
    rcases hstands with rfl | hpassed
    · exact Nat.le_refl _
    · exact Nat.le_trans (Nat.le_trans hpassed.start_le hlast) hpeek
  | token span => exact Nat.le_trans hstands.1.stop_le hpeek
  | node place id => exact Nat.le_trans hstands.2.2.1.stop_le hpeek

/-- An identifier at the front has the property. -/
theorem peek (h : Held P i s ps) (hkind : s.peek.kind = .ident) : P s.peek.text := by
  unfold State.peek at hkind ⊢
  cases hrest : s.rest with
  | nil =>
    rw [hrest] at hkind
    cases hkind
  | cons tok rest =>
    rw [hrest] at hkind
    exact h.idents tok (by rw [hrest]; exact List.mem_cons_self) hkind

/-- Taking a token, which is held from then on. -/
theorem take (h : Held P i s ps) (hkind : s.peek.kind ≠ .eof) : Held P i s.advance
    (ps ++ [.token s.peek.span]) := by
  obtain ⟨hpeek, -, -, hfile⟩ := le_peek h.tokens
  obtain ⟨hlt, hrest⟩ := advance_of_ne_eof h.tokens hkind
  have hbehind := h.stop_le_peek
  have hlast := h.last
  have hself : Passed i.file s.peek.span s.peek.span := ⟨hfile, hfile, Nat.le_refl _, Nat.le_refl _⟩
  have hpassed {span : Span} (hspan : Passed i.file s.last span) : Passed i.file s.peek.span span :=
    ⟨hspan.file_eq, hfile, by have := hspan.start_le; omega, by have := hspan.stop_le; omega⟩
  rw [State.advance, if_neg hkind]
  constructor
  case tokens => exact hrest
  case last => exact Nat.le_of_lt hlt
  case idents => exact fun tok htok => h.idents tok (List.mem_of_mem_tail htok)
  case names => exact h.names
  case nodes => exact h.nodes
  case forest => simpa [Piece.part?, List.filterMap_cons] using h.forest
  case stands =>
    intro p hp
    rcases List.mem_append.1 hp with hp | hp
    · have hstands := h.stands p hp
      cases p with
      | mark span =>
        rcases hstands with rfl | hspan
        · exact .inr hself
        · exact .inr (hpassed hspan)
      | token span => exact ⟨hpassed hstands.1, hstands.2⟩
      | node place id => exact ⟨hstands.1, hstands.2.1, hpassed hstands.2.2.1, hstands.2.2.2⟩
    · obtain rfl := List.mem_singleton.1 hp
      exact ⟨hself, hlt⟩
  case ordered =>
    refine List.pairwise_append.2 ⟨h.ordered, List.pairwise_singleton _ _, ?_⟩
    intro p hp q hq
    obtain rfl := List.mem_singleton.1 hq
    exact hbehind p hp

/-- Moving on without holding what was passed. -/
theorem advance (h : Held P i s ps) : Held P i s.advance ps := by
  by_cases hkind : s.peek.kind = .eof
  · rwa [State.advance, if_pos hkind]
  · exact (h.take hkind).mono (List.sublist_append_left _ _)

/-- The place at the front can be held. -/
theorem markPeek (h : Held P i s ps) : Held P i s (ps ++ [.mark s.peek.span]) := by
  refine { h with forest := ?_, stands := ?_, ordered := ?_ }
  · simpa [Piece.part?, List.filterMap_cons] using h.forest
  · intro p hp
    rcases List.mem_append.1 hp with hp | hp
    · exact h.stands p hp
    · obtain rfl := List.mem_singleton.1 hp
      exact .inl rfl
  · refine List.pairwise_append.2 ⟨h.ordered, List.pairwise_singleton _ _, ?_⟩
    intro p hp q hq
    obtain rfl := List.mem_singleton.1 hq
    exact h.stop_le_peek p hp

/-- The place where a token or a node starts can be held before it. -/
theorem markStart {p : Piece} {span : Span} (h : Held P i s (ps ++ p :: qs)) (hspan : Passed i.file s.last span)
    (hp : p.span s.nodes = span) (hle : span.start ≤ span.stop) : Held P i s (ps ++ .mark span :: p :: qs) := by
  obtain ⟨hps, hqs, hbetween⟩ := List.pairwise_append.1 h.ordered
  obtain ⟨hpqs, -⟩ := List.pairwise_cons.1 hqs
  refine { h with forest := ?_, stands := ?_, ordered := ?_ }
  · simpa [Piece.part?, List.filterMap_cons] using h.forest
  · intro q hq
    rcases List.mem_append.1 hq with hq | hq
    · exact h.stands q (List.mem_append_left _ hq)
    · rcases List.mem_cons.1 hq with rfl | hq
      · exact .inr hspan
      · exact h.stands q (List.mem_append_right _ hq)
  · refine List.pairwise_append.2 ⟨hps, List.pairwise_cons.2 ⟨?_, hqs⟩, ?_⟩
    · intro q hq
      rcases List.mem_cons.1 hq with rfl | hq
      · rw [hp]
        exact Nat.le_refl _
      · exact Nat.le_trans (hp ▸ hle) (hpqs q hq)
    · intro q hq r hr
      rcases List.mem_cons.1 hr with rfl | hr
      · have := hbetween q hq p List.mem_cons_self
        rwa [hp] at this
      · exact hbetween q hq r hr

/-- A piece that is held starts before it stops, unless it is a place. -/
theorem start_le (h : Held P i s ps) {p : Piece} (hp : p ∈ ps) : (p.span s.nodes).start ≤
    (p.span s.nodes).stop := by
  have hstands := h.stands p hp
  cases p with
  | mark span => exact Nat.le_refl _
  | token span => exact Nat.le_of_lt hstands.2
  | node place id => exact Nat.le_of_lt hstands.2.2.2

/-- A statement or an expression can stand wherever any node can. -/
theorem relax {place : Place} {id : Nat} (h : Held P i s (ps ++ [.node place id]))
    (hplace : place = .statement ∨ place = .expression) : Held P i s (ps ++ [.node .node id]) := by
  obtain ⟨hps, -, hbetween⟩ := List.pairwise_append.1 h.ordered
  have hforest := h.forest
  have hlast : (Piece.node place id).Stands i.file s := h.stands _ (by simp)
  refine { h with forest := ?_, stands := ?_, ordered := ?_ }
  · rw [List.filterMap_append] at hforest ⊢
    exact hforest.relax hplace
  · intro p hp
    rcases List.mem_append.1 hp with hp | hp
    · exact h.stands p (List.mem_append_left _ hp)
    · obtain rfl := List.mem_singleton.1 hp
      exact hlast
  · refine List.pairwise_append.2 ⟨hps, List.pairwise_singleton _ _, ?_⟩
    intro p hp q hq
    obtain rfl := List.mem_singleton.1 hq
    exact hbetween p hp (.node place id) List.mem_cons_self

/-- A node that spans the pieces that it uses, from the first on, is held in their place. -/
theorem push {form : Form} {span : Span} {place : Place} {p : Piece} (h : Held P i s (ps ++ p :: qs))
    (hname : P form.name) (hplace : place.admits form = true) (hspan : Passed i.file s.last span)
    (hstart : (p.span s.nodes).start = span.start) (hlt : span.start < span.stop) (hqs : (pieces form).Sublist qs)
    (hstop : ∀ c ∈ form.children, (spanIn s.nodes c).stop ≤ span.stop)
    (hleads : form.declares = true → (p.span s.nodes).start < (p.span s.nodes).stop) :
    Held P i { s with nodes := s.nodes.push ⟨form, span⟩ } (ps ++ [.node place (s.nodes.size + 1)]) := by
  obtain ⟨hps, hpqs, hbetween⟩ := List.pairwise_append.1 h.ordered
  obtain ⟨hp, hqs'⟩ := List.pairwise_cons.1 hpqs
  have hpstart := h.start_le (List.mem_append_right ps List.mem_cons_self)
  have hchild {c : Nat} (hc : c ∈ form.children) : ∃ place, Piece.node place c ∈ qs := by
    obtain ⟨place, hmem⟩ := exists_mem_pieces hc
    exact ⟨place, hqs.subset hmem⟩
  have hbehind {c : Nat} (hc : c ∈ form.children) : (p.span s.nodes).stop ≤ (spanIn s.nodes c).start := by
    obtain ⟨place, hmem⟩ := hchild hc
    exact hp _ hmem
  have hstands {c : Nat} (hc : c ∈ form.children) : 0 < c ∧ c ≤ s.nodes.size ∧
      Passed i.file s.last (spanIn s.nodes c) ∧ (spanIn s.nodes c).start < (spanIn s.nodes c).stop := by
    obtain ⟨place, hmem⟩ := hchild hc
    exact h.stands (.node place c) (List.mem_append_right _ (List.mem_cons_of_mem _ hmem))
  have hordered : form.children.Pairwise fun c d => (spanIn s.nodes c).stop ≤ (spanIn s.nodes d).start := by
    rw [← form.map_snd_parts]
    exact List.pairwise_map.2 (List.pairwise_map.1 (hqs'.sublist hqs))
  have hneat : Neat i.file s.nodes ⟨form, span⟩ := by
    constructor
    case file_eq => exact hspan.file_eq
    case start_le => exact Nat.le_of_lt hlt
    case stop_le => exact Nat.le_trans hspan.stop_le h.tokens.le
    case start_lt => exact fun _ => hlt
    case written => exact fun c hc => ⟨(hstands hc).1, (hstands hc).2.1⟩
    case within => exact fun c hc => ⟨hstart ▸ Nat.le_trans hpstart (hbehind hc), hstop c hc⟩
    case solid => exact fun c hc => (hstands hc).2.2.2
    case ordered => exact hordered
    case leads => exact fun hdeclares c hc => hstart ▸ Nat.lt_of_lt_of_le (hleads hdeclares) (hbehind hc)
  have hkeep {q : Piece} (hq : q ∈ ps) : q.span (s.nodes.push ⟨form, span⟩) = q.span s.nodes := by
    have hstands := h.stands q (List.mem_append_left _ hq)
    cases q with
    | mark span => rfl
    | token span => rfl
    | node place id => exact spanIn_push hstands.2.1 _
  constructor
  case tokens => exact h.tokens
  case last => exact h.last
  case idents => exact h.idents
  case names =>
    intro n hn
    rcases Array.mem_push.1 hn with hn | rfl
    · exact h.names n hn
    · exact hname
  case nodes =>
    intro n hn
    rcases Array.mem_push.1 hn with hn | rfl
    · exact (h.nodes n hn).push _
    · exact hneat.push _
  case forest =>
    have hused : form.parts.Sublist ((p :: qs).filterMap Piece.part?) := by
      rw [← part?_pieces form]
      exact (hqs.trans (List.sublist_cons_self p qs)).filterMap _
    have hforest : Forest s.nodes (ps.filterMap Piece.part? ++ form.parts) := by
      refine h.forest.mono (List.Sublist.subperm ?_)
      rw [List.filterMap_append]
      exact hused.append_left _
    have hpushed := Forest.push (n := ⟨form, span⟩) (hforest.mono List.perm_append_comm.subperm) hplace
    rw [List.filterMap_append]
    exact hpushed.mono (List.perm_append_singleton _ _).subperm
  case stands =>
    intro q hq
    rcases List.mem_append.1 hq with hq | hq
    · have hstands := h.stands q (List.mem_append_left _ hq)
      cases q with
      | mark span => exact hstands
      | token span => exact hstands
      | node place id =>
        obtain ⟨hpos, hle, hpassed, hne⟩ := hstands
        have heq : spanIn (s.nodes.push ⟨form, span⟩) id = spanIn s.nodes id := spanIn_push hle _
        exact ⟨hpos, by rw [Array.size_push]; omega, heq ▸ hpassed, heq ▸ hne⟩
    · obtain rfl := List.mem_singleton.1 hq
      have heq := spanIn_push_size s.nodes ⟨form, span⟩
      exact ⟨Nat.succ_pos _, Nat.le_of_eq (Array.size_push _).symm, heq ▸ hspan, heq ▸ hlt⟩
  case ordered =>
    refine List.pairwise_append.2 ⟨?_, List.pairwise_singleton _ _, ?_⟩
    · refine hps.imp_of_mem fun {q r} hq hr hqr => ?_
      rwa [hkeep hq, hkeep hr]
    · intro q hq r hr
      obtain rfl := List.mem_singleton.1 hr
      rw [hkeep hq]
      refine Nat.le_trans (hbetween q hq p List.mem_cons_self) ?_
      rw [hstart]
      exact Nat.le_of_eq (congrArg Span.start (spanIn_push_size s.nodes ⟨form, span⟩)).symm

end Held

/-- A place before a node that is held was passed. -/
theorem Held.passed_of_mark {ps : List Piece} {span : Span} {place : Place} {c : Nat}
    (h : Held P i s (.mark span :: ps)) (hc : .node place c ∈ ps) : Passed i.file s.last span ∧ span.start ≤
    (spanIn s.nodes c).start := by
  have hle : span.start ≤ (spanIn s.nodes c).start := (List.pairwise_cons.1 h.ordered).1 _ hc
  refine ⟨(h.stands _ List.mem_cons_self).resolve_left ?_, hle⟩
  rintro rfl
  obtain ⟨hpeek, -⟩ := le_peek h.tokens
  obtain ⟨-, -, hpassed, hlt⟩ := h.stands _ (List.mem_cons_of_mem _ hc)
  have := hpassed.stop_le
  omega

/-- A parser that writes nothing keeps what is held. -/
theorem Assembled.held {α : Type} {p : Parser α} (hp : Assembled False p) {ps : List Piece} (h : Held P i s ps) :
    Held P i (p i s).2 ps := by
  induction hp generalizing s with
  | pure | fail | look | enough => exact h
  | advance => exact h.advance
  | eat kind =>
    unfold Parser.eat
    split
    · exact h.advance
    · exact h
  | write hfalse => exact hfalse.elim
  | reportAt => exact { h with }
  | attempt _ ih => exact ih h
  | @bind α β p f _ _ ihp ihf =>
    have hfirst := ihp h
    rw [bind_apply]
    rcases hrun : p i s with ⟨_ | a, s'⟩ <;> rw [hrun] at hfirst
    · exact hfirst
    · exact ihf a hfirst

/-! ### Parsers -/

variable {front : Option Token} {rest ins ins' : List Piece} {p : Parser α} {f : α → Parser β}
    {outs : α → List Piece}
  {outs' : β → List Piece} {place : Place} {form : Form}

/-- The parser uses the pieces `ins`, whatever else is held before them, and holds `outs` when it succeeds. It is
run where the token is at the front, if there is one. -/
def Lays (P : String → Prop) (front : Option Token) (ins : List Piece) (p : Parser α)
    (outs : α → List Piece) : Prop :=
  ∀ i s ps, s.Shows front → Held P i s (ps ++ ins) → Held P i (p i s).2 (ps ++ (p i s).1.elim [] outs)

namespace Lays

theorem pure {a : α} (h : outs a = ins) : Lays P front ins (pure a) outs := by
  subst h
  exact fun _ _ _ _ hs => hs

theorem fail : Lays P front ins (fail : Parser α) outs := fun _ _ ps _ h => h.mono
    ((List.nil_sublist ins).append_left ps)

theorem mono (hp : Lays P front ins p outs) (hsub : ins.Sublist ins') : Lays P front ins' p outs :=
  fun i s ps hfront h => hp i s ps hfront (h.mono (hsub.append_left ps))

/-- What the first parser does not use stays held. -/
theorem bind (hp : Lays P front ins p outs) (hf : ∀ a, Lays P none (rest ++ outs a) (f a) outs') :
    Lays P front (rest ++ ins) (p >>= f) outs' := by
  intro i s ps hfront hs
  have h := hp i s (ps ++ rest) hfront (by simpa using hs)
  rw [bind_apply]
  rcases hrun : p i s with ⟨_ | a, s'⟩ <;> rw [hrun] at h
  · exact h.mono (by simp)
  · exact hf a i s' ps s'.shows_none (by simpa using h)

theorem andThen (hp : Lays P front [] p outs) (hf : ∀ a, Lays P none (ins ++ outs a) (f a) outs') :
    Lays P front ins (p >>= f) outs' := by
  have h := hp.bind hf
  rwa [List.append_nil] at h

/-- A parser that writes nothing uses nothing. -/
theorem quiet (hp : Assembled False p) : Lays P front [] p fun _ => [] := by
  intro i s ps _ hs
  have h := hp.held hs
  cases (p i s).1 with
  | none => exact h
  | some a => exact h

/-- The first parser writes nothing. -/
theorem after (hp : Assembled False p) (hf : ∀ a, Lays P none ins (f a) outs') : Lays P front ins
    (p >>= f) outs' := by
  have hthen (a : α) : Lays P none (ins ++ []) (f a) outs' := by
    rw [List.append_nil]
    exact hf a
  exact (Lays.quiet hp).andThen hthen

theorem look (hp : Looks p) (hf : ∀ a, Lays P front ins (f a) outs') : Lays P front ins (p >>= f) outs' := by
  intro i s
  obtain ⟨x, hx⟩ := hp.bind_eq i s
  rw [hx]
  exact hf x i s

theorem attempt (hp : Lays P front ins p outs) : Lays P front ins (attempt p) fun r => r.elim [] outs := hp

end Lays

/-! ### Nodes -/

section

variable {span : Span} (hname : P form.name) (hplace : place.admits form = true)
include hname hplace

/-- A node without parts takes the place of a token. -/
theorem lays_leaf (hform : form.parts = []) : Lays P front [.token span] (write form span) fun id =>
    [.node place id] := by
  intro i s ps _ h
  have hchildren : form.children = [] := by rw [← form.map_snd_parts, hform, List.map_nil]
  obtain ⟨hspan, hlt⟩ := h.stands (.token span) (List.mem_append_right _ List.mem_cons_self)
  exact h.push hname hplace hspan rfl hlt (by simp [pieces, hform]) (by simp [hchildren]) fun _ => hlt

/-- A node that starts with a token. -/
theorem lays_fromToken :
    Lays P front (.token span :: pieces form) (writeFrom form span) fun id => [.node place id] := by
  intro i s ps _ h
  have hstands {q : Piece} (hq : q ∈ .token span :: pieces form) := h.stands q (List.mem_append_right _ hq)
  obtain ⟨hspan, hlt⟩ := hstands List.mem_cons_self
  have hcover := hspan.cover_eq
  have hpassed : Passed i.file s.last (span.cover s.last) := by
    rw [hcover]
    exact ⟨rfl, hspan.last_file, hspan.start_le, Nat.le_refl _⟩
  refine h.push hname hplace hpassed (by rw [hcover]; rfl) ?_ (List.Sublist.refl _) ?_ fun _ => hlt
  · rw [hcover]
    exact Nat.lt_of_lt_of_le hlt hspan.stop_le
  · intro c hc
    obtain ⟨place, hmem⟩ := exists_mem_pieces hc
    rw [hcover]
    exact (hstands (List.mem_cons_of_mem _ hmem)).2.2.1.stop_le

/-- A node that starts at a place, with its first part or before it. -/
theorem lays_fromMark (hne : form.parts ≠ []) (hform : form.declares = false) :
    Lays P front (.mark span :: pieces form) (writeFrom form span) fun id => [.node place id] := by
  intro i s ps _ h
  obtain ⟨part, hpart⟩ := List.exists_mem_of_ne_nil _ hne
  have hheld := h.mono (List.sublist_append_right _ _)
  obtain ⟨hspan, hle⟩ := hheld.passed_of_mark (List.mem_map_of_mem hpart)
  have hstands {part : Place × Nat} (hpart : part ∈ form.parts) :=
    hheld.stands _ (List.mem_cons_of_mem _ (List.mem_map_of_mem hpart))
  have hcover := hspan.cover_eq
  have hpassed : Passed i.file s.last (span.cover s.last) := by
    rw [hcover]
    exact ⟨rfl, hspan.last_file, hspan.start_le, Nat.le_refl _⟩
  refine h.push hname hplace hpassed (by rw [hcover]; rfl) ?_ (List.Sublist.refl _) ?_ (by simp [hform])
  · rw [hcover]
    have := (hstands hpart).2.2.1.stop_le
    have := (hstands hpart).2.2.2
    change span.start < s.last.stop
    omega
  · intro c hc
    rw [← form.map_snd_parts] at hc
    obtain ⟨part, hpart, rfl⟩ := List.mem_map.1 hc
    rw [hcover]
    exact (hstands hpart).2.2.1.stop_le

end

/-- A member access starts with its base and ends with the name. -/
theorem lays_member {x : Nat} {name : String} {span last : Span} (hname : P name)
    (hplace : place.admits (.member x name) = true) : Lays P front [.mark span, .node .expression x, .token last]
      (write (.member x name) (span.cover last)) fun id => [.node place id] := by
  intro i s ps _ h
  have hheld := h.mono (List.sublist_append_right _ _)
  have hbase : Piece.node .expression x ∈ [.node .expression x, .token last] := List.mem_cons_self
  obtain ⟨hspan, hle⟩ := hheld.passed_of_mark hbase
  obtain ⟨-, -, hnode, hlt⟩ := hheld.stands (.node .expression x) (by simp)
  obtain ⟨hlast, -⟩ := hheld.stands (.token last) (by simp)
  have hbefore : (spanIn s.nodes x).stop ≤ last.start := by
    have := hheld.ordered
    simp only [List.pairwise_cons] at this
    exact this.2.1 _ List.mem_cons_self
  have hcover : span.cover last = ⟨i.file.id, span.start, max span.stop last.stop⟩ := by
    unfold Span.cover
    rw [if_pos (hspan.file_eq.trans hlast.file_eq.symm), hspan.file_eq, Nat.min_eq_left (by omega)]
  have hpassed : Passed i.file s.last (span.cover last) := by
    rw [hcover]
    exact ⟨rfl, hspan.last_file, hspan.start_le, Nat.max_le.2 ⟨hspan.stop_le, hlast.stop_le⟩⟩
  have hstop : last.start ≤ last.stop := hheld.start_le (p := .token last) (by simp)
  refine h.push hname hplace hpassed (by rw [hcover]; rfl) ?_ (by simp [pieces, Form.parts]) ?_
    (by simp [Form.declares])
  · rw [hcover]
    have hlast : span.start < last.stop := by omega
    exact Nat.lt_of_lt_of_le hlast (Nat.le_max_right _ _)
  · intro c hc
    obtain rfl : c = x := by simpa [Form.children] using hc
    rw [hcover]
    exact Nat.le_trans (by omega) (Nat.le_max_right _ _)

theorem Writes.lays (h : Writes ins form q) (hname : P form.name) (hplace : place.admits form = true) :
    Lays P front ins q fun id => [.node place id] := by
  cases h with
  | leaf hform => exact lays_leaf hname hplace hform
  | fromToken => exact lays_fromToken hname hplace
  | fromMark hne hform => exact lays_fromMark hname hplace hne hform
  | member => exact lays_member hname hplace

/-! ### Lists -/

theorem lays_items {close : Token.Kind} {separator : Parser Bool} {item : Parser Nat}
    (hsep : Lays P none [] separator fun _ => []) (hitem : Lays P none [] item fun id => [.node place id])
    (fuel : Nat) :
    Lays P none [] (items close separator item fuel) fun ids => ids.map (.node place) := by
  induction fuel with
  | zero => exact .fail
  | succ fuel ih =>
    refine .look (looks_isAt close) fun b => ?_
    split
    · exact .pure rfl
    refine hitem.andThen fun id => hsep.andThen fun b => ?_
    split
    · exact ih.andThen fun ids => .pure rfl
    · exact .pure rfl

theorem lays_statements (stops : List Token.Kind) {stmt : Parser Nat}
    (hstmt : Lays P none [] stmt fun id => [.node place id]) (fuel : Nat) :
    Lays P none [] (statements stops stmt fuel) fun ids => ids.map (.node place) := by
  induction fuel with
  | zero => exact .pure rfl
  | succ fuel ih =>
    refine .look (looks_isAtAny stops) fun stop => .after .enough fun enough => ?_
    split
    · exact .pure rfl
    refine .look looks_get fun s => hstmt.attempt.andThen fun r => ?_
    cases r with
    | some id => exact ih.andThen fun ids => .pure rfl
    | none => exact .after (.resync _) fun _ => ih

/-! ### The grammar -/

/-- What follows the rules uses the pieces that they say. The induction is on the rules. -/
theorem Does.lays {α : Type} {A : Prop} {n a b k : Nat} {front : Option Token} {ins : List Piece} {p q : Parser α}
    {outs : α → List Piece} (h : Does P A n a b k front ins p q outs) : Lays P front ins p outs := by
  induction h with
  | pure h => exact .pure h
  | never _ hp =>
    rw [hp]
    exact .fail
  | reject hr => exact .after hr.assembled fun _ => .fail
  | warn hr _ ih => exact .after hr.assembled fun _ => ih
  | bind _ _ ihp ihf => exact ihp.bind fun x => ihf x 0
  | weaken _ _ _ hins ih => exact ih.mono hins
  | look hp _ ihf => exact .look hp ihf
  | peek _ ihf => exact fun i s ps _ h => ihf s.peek h.peek i s ps s.shows_peek h
  | anywhere _ ih => exact fun i s ps _ h => ih i s ps s.shows_none h
  | advance hkind =>
    intro i s ps hfront h
    obtain rfl := hfront.eq
    rw [List.append_nil] at h
    exact h.take hkind.ne_eof
  | @expect _ _ _ _ _ _ _ kind problem ins f _ _ hkind _ ihf =>
    intro i s ps _ h
    rw [bind_apply]
    by_cases hpeek : s.peek.kind = kind
    · rw [expect_of_kind hpeek]
      have htake := h.take (hpeek ▸ hkind.ne_eof)
      rw [List.append_assoc] at htake
      exact ihf s.peek 0 (fun hident => h.peek (hpeek.trans hident)) i s.advance ps s.advance.shows_none htake
    · rw [expect_of_ne hpeek]
      exact ((reports_report problem).assembled.held h).mono (by simp)
  | eat => exact .quiet (.eat _)
  | @ended _ _ _ _ _ _ f g _ _ hfalse ihtrue =>
    refine .after .endStatement fun ended => ?_
    cases ended with
    | true => exact ihtrue 0
    | false =>
      rcases hfalse with ⟨hf, -⟩ | ⟨hf, -⟩ <;> rw [hf]
      · exact ihtrue 0
      · exact .fail
  | items _ _ _ ihsep ihitem => exact lays_items (ihsep 0) (ihitem 0) _
  | statements _ _ _ ihstmt => exact lays_statements _ (ihstmt 0) _
  | write _ h hname hplace => exact h.lays hname hplace
  | @mark _ _ _ _ _ _ tok _ _ _ _ _ ih =>
    intro i s ps hfront h
    refine ih i s ps hfront ?_
    rw [← List.append_assoc, ← hfront.eq]
    exact h.markPeek
  | @ofToken _ _ _ _ _ _ _ _ span _ _ _ _ ih =>
    intro i s ps hfront h
    obtain ⟨hspan, hlt⟩ := h.stands (.token span) (List.mem_append_right _ List.mem_cons_self)
    exact ih i s ps hfront (h.markStart hspan rfl (Nat.le_of_lt hlt))
  | @spanOf _ _ _ _ _ _ _ place x f _ _ _ ihf =>
    intro i s ps hfront h
    obtain ⟨-, -, hspan, hlt⟩ := h.stands (.node place x) (List.mem_append_right _ List.mem_cons_self)
    exact ihf (spanIn s.nodes x) i s ps hfront (h.markStart hspan rfl (Nat.le_of_lt hlt))
  | @relax _ _ _ _ _ _ _ _ p _ _ hplace ih =>
    intro i s ps hfront h
    have hheld := ih i s ps hfront h
    cases hrun : (p i s).1 with
    | none => simpa [hrun] using hheld
    | some id =>
      rw [hrun] at hheld
      exact hheld.relax hplace

/-! ### Files -/

/-- The nodes are a forest of neat nodes, and their names have the property. -/
structure Written (P : String → Prop) (file : File) (nodes : Array Node) : Prop where
  names : ∀ n ∈ nodes, P n.form.name
  neat : ∀ n ∈ nodes, Neat file nodes n
  forest : Forest nodes []

theorem Held.written {ps : List Piece} (h : Held P i s ps) : Written P i.file s.nodes :=
  ⟨h.names, h.nodes, h.forest.mono List.nil_subperm⟩

/-- The module is written last and spans the statements. -/
theorem Held.neat_module {start : Span} {body : List Nat}
    (h : Held P i s (.mark start :: body.map (.node .statement))) :
    Neat i.file s.nodes ⟨.module body, start.cover s.last⟩ := by
  have hmark {c : Nat} (hc : c ∈ body) := h.passed_of_mark (List.mem_map_of_mem hc)
  have hstands {c : Nat} (hc : c ∈ body) :=
    h.stands (.node .statement c) (List.mem_cons_of_mem _ (List.mem_map_of_mem hc))
  by_cases hspan : Passed i.file s.last start
  · rw [hspan.cover_eq]
    constructor
    case file_eq => rfl
    case start_le => exact Nat.le_trans hspan.start_le h.last
    case stop_le => exact h.tokens.le
    case start_lt => exact fun hne => absurd rfl (hne body)
    case written => exact fun c hc => ⟨(hstands hc).1, (hstands hc).2.1⟩
    case within => exact fun c hc => ⟨(hmark hc).2, (hstands hc).2.2.1.stop_le⟩
    case solid => exact fun c hc => (hstands hc).2.2.2
    case ordered => exact List.pairwise_map.1 (List.pairwise_cons.1 h.ordered).2
    case leads => exact fun hdeclares => absurd hdeclares Bool.false_ne_true
  · -- no token was taken, so there is no statement
    obtain rfl : body = [] := List.eq_nil_iff_forall_not_mem.2 fun c hc => hspan (hmark hc).1
    obtain rfl := (h.stands _ List.mem_cons_self).resolve_right hspan
    obtain ⟨-, hle, hstop, hfile⟩ := le_peek h.tokens
    constructor
    case file_eq =>
      unfold Span.cover
      split <;> exact hfile
    case start_le => exact Nat.le_trans (Span.start_cover_le _ _) (Nat.le_trans hle (Span.stop_le_cover _ _))
    case stop_le =>
      unfold Span.cover
      split
      · exact Nat.max_le.2 ⟨hstop, h.tokens.le⟩
      · exact hstop
    case start_lt => exact fun hne => absurd rfl (hne [])
    case written => exact fun c hc => absurd hc List.not_mem_nil
    case within => exact fun c hc => absurd hc List.not_mem_nil
    case solid => exact fun c hc => absurd hc List.not_mem_nil
    case ordered => exact List.Pairwise.nil
    case leads => exact fun hdeclares => absurd hdeclares Bool.false_ne_true

/-- What a whole file is parsed to. -/
theorem written_module (hempty : P "") (hnull : P "null") (h : Held P i s []) : Written P i.file
    (module i s).2.nodes := by
  have hstmt : Lays P none [] (stmt (depthFor s.rest.length)) fun id => [.node .statement id] :=
    ((stmtsDo hempty hnull _).stmt 0 0).lays
  have hbody := lays_statements [.eof] hstmt (depthFor s.rest.length) i s [.mark s.peek.span]
    s.shows_none h.markPeek
  have hrun : module i s = (do
      let body ← statements [.eof] (stmt (depthFor s.rest.length)) (depthFor s.rest.length)
      writeFrom (.module body) s.peek.span) i s := rfl
  rw [hrun, bind_apply]
  rcases hstatements : statements [.eof] (stmt (depthFor s.rest.length)) (depthFor s.rest.length) i
    s with ⟨_ | body, s'⟩ <;>
    rw [hstatements] at hbody
  · exact hbody.written
  · constructor
    case names =>
      intro n hn
      rcases Array.mem_push.1 hn with hn | rfl
      · exact hbody.names n hn
      · exact hempty
    case neat =>
      intro n hn
      rcases Array.mem_push.1 hn with hn | rfl
      · exact (hbody.nodes n hn).push _
      · exact hbody.neat_module.push _
    case forest =>
      have hforest : Forest s'.nodes (Form.module body).parts := by
        simpa [Piece.part?, Form.parts, List.filterMap_cons, List.filterMap_map,
          Function.comp_def] using hbody.forest
      have hused : Forest s'.nodes ((Form.module body).parts ++ []) := by rwa [List.append_nil]
      have hroot : Place.node.admits (Form.module body) = true := rfl
      have hpushed := Forest.push (n := ⟨.module body, s.peek.span.cover s'.last⟩) hused hroot
      exact hpushed.mono List.nil_subperm

/-- What the last parser of a sequence leaves does not depend on the parsers before it. -/
theorem post_bind {P : β → State → Prop} (hf : ∀ a i s b, (f a i s).1 = some b → P b (f a i s).2)
    (i : Input) (s : State) (b : β) (h : ((p >>= f) i s).1 = some b) : P b ((p >>= f) i s).2 := by
  rw [bind_apply] at h ⊢
  rcases hrun : p i s with ⟨_ | a, s'⟩ <;> rw [hrun] at h
  · cases h
  · exact hf a i s' b h

/-- The node is a module. -/
def IsModuleAt (root : Nat) (s : State) : Prop := ∃ body span, 0 < root ∧ s.nodes[root - 1]? =
    some ⟨.module body, span⟩

theorem isModuleAt_module (i : Input) (s : State) (root : Nat) (h : (module i s).1 = some root) :
    IsModuleAt root (module i s).2 := by
  refine post_bind (P := IsModuleAt) (fun tok => ?_) i s root h
  refine post_bind (P := IsModuleAt) fun s₀ => ?_
  refine post_bind (P := IsModuleAt) fun body i s root hroot => ?_
  obtain rfl : s.nodes.size + 1 = root := Option.some.inj hroot
  exact ⟨body, _, Nat.succ_pos _, Array.getElem?_push_size⟩

end Parser

/-- What holds of all identifiers of a file, of no name and of `null` holds of the names of its nodes, which are a
forest. -/
theorem written_parse {P : String → Prop} (hempty : P "") (hnull : P "null") (file : File) (maxErrors : Nat)
    (hident : ∀ tok ∈ (Token.ofFile file).1, tok.kind = .ident → P tok.text) :
    Parser.Written P file (parse file maxErrors).tree.nodes := by
  refine Parser.written_module (i := ⟨file, maxErrors⟩) (s := { rest := (Token.ofFile file).1 }) hempty hnull ?_
  exact ⟨Token.lined_ofFile file, Nat.le_refl _, hident, by simp, by simp, .empty, by simp, List.Pairwise.nil⟩

/-- How the nodes of a file stand, whatever is wrong with the file. -/
theorem neat_parse (file : File) (maxErrors : Nat) :
    ∀ n ∈ (parse file maxErrors).tree.nodes, Neat file (parse file maxErrors).tree.nodes n :=
  (written_parse (P := fun _ => True) trivial trivial file maxErrors fun _ _ _ => trivial).neat

/-- The nodes written for a file are a forest. -/
theorem forest_parse (file : File) (maxErrors : Nat) : Forest (parse file maxErrors).tree.nodes [] :=
  (written_parse (P := fun _ => True) trivial trivial file maxErrors fun _ _ _ => trivial).forest

/-- The root of the tree of a file is a module, if there is one. -/
theorem root_parse (file : Source.File) (maxErrors : Nat) : (parse file maxErrors).tree.root = 0 ∨
    ∃ body, (parse file maxErrors).tree.form? (parse file maxErrors).tree.root = some (.module body) := by
  have hmodule := Parser.isModuleAt_module ⟨file, maxErrors⟩ { rest := (Token.ofFile file).1 }
  change (Parser.module ⟨file, maxErrors⟩ { rest := (Token.ofFile file).1 }).1.getD 0 = 0 ∨ _
  cases hroot : (Parser.module ⟨file, maxErrors⟩ { rest := (Token.ofFile file).1 }).1 with
  | none => exact .inl rfl
  | some root =>
    obtain ⟨body, span, hpos, hnode⟩ := hmodule root hroot
    have hid : (parse file maxErrors).tree.root = root := congrArg (·.getD 0) hroot
    have hn : (parse file maxErrors).tree.nodes[root - 1]? = some ⟨.module body, span⟩ := hnode
    exact .inr ⟨body, by simp [hid, Tree.form?, Tree.node?, hn, Nat.ne_of_gt hpos]⟩

end TypedScript.Ast
