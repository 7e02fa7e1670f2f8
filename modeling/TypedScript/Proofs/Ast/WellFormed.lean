import TypedScript.Ast.Invariant
import TypedScript.Proofs.Ast.Depth
import TypedScript.Proofs.Ast.Linked
import TypedScript.Proofs.Ast.Spans

/-!
# Trees are well formed

Whatever is wrong with a file, there is a tree of it that is well formed: every node but the module is a part of
one node, spans lie within the file and follow the structure, and every declaration is listed by its container, in
the order of the text.

* `pairwise_walk`: going down a tree, what comes later stands inside or behind what comes first.
* `Tree.WellFormed`: what is expected of a tree.
* `wellFormed_parseFile`: the tree of every file that fits meets it.
-/

namespace TypedScript.Ast

open TypedScript.Source

/-! ### There is a module -/

namespace Parser

variable {α β : Type}

/-- The parser never fails. -/
def Succeeds (p : Parser α) : Prop := ∀ i s, (p i s).1.isSome

theorem Succeeds.bind {p : Parser α} {f : α → Parser β} (hp : Succeeds p) (hf : ∀ a, Succeeds (f a)) :
    Succeeds (p >>= f) := by
  intro i s
  have h := hp i s
  rw [bind_apply]
  rcases hrun : p i s with ⟨_ | a, s'⟩ <;> rw [hrun] at h
  · exact nomatch h
  · exact hf a i s'

theorem succeeds_eat (k : Token.Kind) : Succeeds (eat k) := by
  intro i s
  unfold eat
  split <;> rfl

theorem succeeds_skipToBoundary (fuel : Nat) : Succeeds (skipToBoundary fuel) := by
  induction fuel with
  | zero => exact fun _ _ => rfl
  | succ fuel ih =>
    refine .bind (fun _ _ => rfl) fun b => ?_
    split
    · exact fun _ _ => rfl
    refine .bind (succeeds_eat _) fun b => ?_
    split
    · exact fun _ _ => rfl
    refine .bind (fun _ _ => rfl) fun b => ?_
    split
    · exact fun _ _ => rfl
    · exact .bind (fun _ _ => rfl) fun _ => ih

theorem succeeds_resync (before : Nat) : Succeeds (resync before) := by
  have hskip : Succeeds (do skipToBoundary (← get).rest.length) := .bind (fun _ _ => rfl) fun _ =>
    succeeds_skipToBoundary _
  refine .bind (fun _ _ => rfl) fun s => ?_
  split
  · exact .bind (fun _ _ => rfl) fun _ => hskip
  · exact hskip

theorem succeeds_statements (stops : List Token.Kind) (stmt : Parser Nat) (fuel : Nat) :
    Succeeds (statements stops stmt fuel) := by
  induction fuel with
  | zero => exact fun _ _ => rfl
  | succ fuel ih =>
    refine .bind (fun _ _ => rfl) fun b => .bind (fun _ _ => rfl) fun b' => ?_
    split
    · exact fun _ _ => rfl
    refine .bind (fun _ _ => rfl) fun s => .bind (fun _ _ => rfl) fun r => ?_
    cases r with
    | some id => exact .bind ih fun _ _ _ => rfl
    | none => exact .bind (succeeds_resync _) fun _ => ih

theorem succeeds_module : Succeeds module :=
  .bind (fun _ _ => rfl) fun _ => .bind (fun _ _ => rfl) fun _ => .bind (succeeds_statements _ _ _) fun _ _ _ => rfl

end Parser

/-- The root of the tree of a file is a module. -/
theorem exists_module_parse (file : File) (maxErrors : Nat) : 0 < (parse file maxErrors).tree.root ∧
    ∃ body, (parse file maxErrors).tree.form? (parse file maxErrors).tree.root = some (.module body) := by
  have hsome := Parser.succeeds_module ⟨file, maxErrors⟩ { rest := (Token.ofFile file).1 }
  have hpos : 0 < (parse file maxErrors).tree.root := by
    obtain ⟨root, hroot⟩ := Option.isSome_iff_exists.1 hsome
    obtain ⟨body, span, hpos, -⟩ := Parser.isModuleAt_module _ _ root hroot
    exact Nat.lt_of_lt_of_eq hpos (congrArg (·.getD 0) hroot).symm
  exact ⟨hpos, (root_parse file maxErrors).resolve_left (Nat.ne_of_gt hpos)⟩

namespace Tree

variable {t : Tree} {file : File} {enter : Nat → Bool}

/-! ### The order of nodes -/

theorem walkOnto_eq_append (id : Nat) (tail : List Nat) : t.walkOnto enter id tail = t.walk enter id ++ tail := by
  induction id using Nat.strongRecOn generalizing tail with
  | _ id ih =>
    have hparts (cs : List Nat) (tail : List Nat) :
        cs.foldr (fun c tail => if c < id then walkOnto t enter c tail else tail) tail =
          cs.foldr (fun c tail => if c < id then walkOnto t enter c tail else tail) [] ++ tail := by
      induction cs with
      | nil => rfl
      | cons c cs ihcs =>
        simp only [List.foldr_cons]
        split
        · rename_i hlt
          rw [ih c hlt, ih c hlt (cs.foldr _ []), ihcs, List.append_assoc]
        · exact ihcs
    rw [walk, walkOnto, walkOnto]
    split
    · rfl
    split
    · rw [hparts _ tail]
      rfl
    · rfl

/-- A node comes before its parts. -/
theorem walk_eq_cons {id : Nat} (hpos : 0 < id) (hlt : ∀ c ∈ t.children id, c < id) :
    t.walk enter id = id :: if enter id then (t.children id).flatMap (t.walk enter) else [] := by
  have hparts (cs : List Nat) (hcs : ∀ c ∈ cs, c < id) :
      cs.foldr (fun c tail => if c < id then walkOnto t enter c tail else tail) [] = cs.flatMap (t.walk enter) := by
    induction cs with
    | nil => rfl
    | cons c cs ih =>
      obtain ⟨hc, hcs⟩ := List.forall_mem_cons.1 hcs
      rw [List.foldr_cons, if_pos hc, ih hcs, walkOnto_eq_append, List.flatMap_cons]
  rw [walk, walkOnto, if_neg (Nat.ne_of_gt hpos), hparts _ hlt]

/-- The nodes stand as those of a file. -/
def IsNeat (t : Tree) (file : File) : Prop := ∀ n ∈ t.nodes, Neat file t.nodes n

/-- How the node with the number `id` stands. -/
theorem IsNeat.node (h : t.IsNeat file) {id : Nat} {f : Form} (hf : t.form? id = some f) :
    Neat file t.nodes ⟨f, t.span id⟩ := by
  obtain ⟨hpos, n, hn, rfl⟩ := form?_eq_some.1 hf
  have hspan : t.span id = n.span := by simp [span, node?, Nat.ne_of_gt hpos, hn]
  rw [hspan]
  exact h n (Array.mem_of_getElem? hn)

theorem IsNeat.within (h : t.IsNeat file) {id c : Nat} (hc : c ∈ t.children id) :
    (t.span id).start ≤ (t.span c).start ∧ (t.span c).stop ≤ (t.span id).stop := by
  obtain ⟨f, hf, hc⟩ := mem_children.1 hc
  exact (h.node hf).within c hc

/-- What is gone down to stands within. -/
theorem IsNeat.down (h : t.IsNeat file) {id x : Nat} (hx : Down t enter id x) :
    (t.span id).start ≤ (t.span x).start ∧ (t.span x).stop ≤ (t.span id).stop := by
  induction hx with
  | here _ => exact ⟨Nat.le_refl _, Nat.le_refl _⟩
  | part _ hc _ _ ih =>
    have := h.within hc
    omega

/-- What comes later stands inside or behind what comes first. -/
theorem pairwise_walk (hlinked : t.Linked) (h : t.IsNeat file) (id : Nat) : (t.walk enter id).Pairwise fun x y =>
    y < x ∧ Down t enter x y ∨ (t.span x).stop ≤ (t.span y).start := by
  induction id using Nat.strongRecOn with
  | _ id ih =>
    rcases Nat.eq_zero_or_pos id with rfl | hpos
    · rw [walk, walkOnto]
      exact List.Pairwise.nil
    rw [walk_eq_cons hpos fun c hc => (hlinked.part_lt hc).2]
    split
    · rename_i henter
      refine List.pairwise_cons.2
        ⟨fun y hy => .inl ?_, List.pairwise_flatMap.2 ⟨fun c hc => ih c (hlinked.part_lt hc).2, ?_⟩⟩
      · obtain ⟨c, hc, hy⟩ := List.mem_flatMap.1 hy
        have hlt := (hlinked.part_lt hc).2
        have hdown := mem_walk.1 hy
        exact ⟨Nat.lt_of_le_of_lt hdown.le hlt, .part henter hc hlt hdown⟩
      · cases hf : t.form? id with
        | none => simp [children, hf]
        | some f =>
          have hchildren : t.children id = f.children := by simp [children, hf]
          rw [hchildren]
          refine (h.node hf).ordered.imp fun {c d} hcd x hx y hy => .inr ?_
          have hx := h.down (mem_walk.1 hx)
          have hy := h.down (mem_walk.1 hy)
          change (t.span c).stop ≤ (t.span d).start at hcd
          omega
    · exact List.pairwise_singleton _ _

/-! ### Declarations -/

section Declarations

variable {x : Nat}

theorem declares_of_isDeclaration (h : t.isDeclaration x = true) : ∃ f, t.form? x = some f ∧ f.declares = true := by
  unfold isDeclaration at h
  split at h
  case h_6 => exact nomatch h
  all_goals exact ⟨_, ‹_›, rfl⟩

/-- There is no declaration inside a type. -/
theorem Linked.outside_of_isDeclaration (h : t.Linked) (hx : x ∈ t.reached) (hdecl : t.isDeclaration x = true) :
    x ∈ t.reachedOutsideTypes := by
  rcases h.outside_or_inType hx with hout | htype | ⟨⟨name, type, hparam⟩, htype⟩
  · exact hout
  · exact nomatch (isType_of_isDeclaration hdecl).symm.trans htype
  · -- a parameter in a type declares nothing
    have hfunction : t.isFunction (t.parent x) = true := by simpa [isDeclaration, hparam] using hdecl
    exact nomatch (isType_of_isFunction hfunction).symm.trans htype

theorem Linked.reached_of_mem_ancestors (h : t.Linked) {a : Nat} (ha : a ∈ t.ancestors x) : a ∈ t.reached := by
  fun_induction ancestors t x with
  | case1 x hx ih =>
    rcases List.mem_cons.1 ha with rfl | ha
    · exact (h.part_parent (by omega)).1
    · exact ih ha
  | case2 x hx => cases ha

/-- What opens a scope does not stand inside a type. -/
theorem Linked.outside_of_isContainer (h : t.Linked) (hx : x ∈ t.reached) (hcontainer : t.isContainer x = true) :
    x ∈ t.reachedOutsideTypes := by
  rcases h.outside_or_inType hx with hout | htype | ⟨⟨name, type, hparam⟩, -⟩
  · exact hout
  · exact nomatch (isType_of_isContainer hcontainer).symm.trans htype
  · simp [isContainer, hparam] at hcontainer

/-- A declaration stands in a container. -/
theorem Linked.container_mem (h : t.Linked) (hroot : ∃ body, t.form? t.root = some (.module body))
    (hx : x ∈ t.reached) (hdecl : t.isDeclaration x = true) : t.container x ∈ t.containers := by
  obtain ⟨body, hmodule⟩ := hroot
  have hne : x ≠ t.root := by
    rintro rfl
    simp [isDeclaration, hmodule] at hdecl
  have hcontainer : t.container x ≠ 0 :=
    nearest_ne_zero (h.root_mem_ancestors hx hne) (by simp [isContainer, hmodule])
  obtain ⟨hmem, hopens⟩ := nearest_mem hcontainer
  exact List.mem_filter.2 ⟨h.outside_of_isContainer (h.reached_of_mem_ancestors hmem) hopens, hopens⟩

/-- Declarations start one after another. -/
theorem pairwise_decls (hlinked : t.Linked) (h : t.IsNeat file) (c : Nat) :
    (t.decls c).Pairwise fun d e => (t.span d).start < (t.span e).start := by
  refine ((pairwise_walk hlinked h t.root).filter _).imp_of_mem fun {d e} hd he hde => ?_
  obtain ⟨-, hd⟩ := List.mem_filter.1 hd
  obtain ⟨hdecl, -⟩ := Bool.and_eq_true_iff.1 hd
  obtain ⟨f, hf, hdeclares⟩ := declares_of_isDeclaration hdecl
  rcases hde with ⟨hlt, hdown⟩ | hbehind
  · cases hdown with
    | here _ => exact absurd hlt (Nat.lt_irrefl _)
    | @part _ p _ _ hp _ hdown =>
      have hpart : p ∈ f.children := by simpa [children, hf] using hp
      have hlead := (h.node hf).leads hdeclares _ hpart
      have hinside := h.down hdown
      exact Nat.lt_of_lt_of_le hlead hinside.1
  · have hlt : (t.span d).start < (t.span d).stop := by
      refine (h.node hf).start_lt ?_
      rintro body rfl
      exact nomatch hdeclares
    omega

end Declarations

/-! ### Well-formed trees -/

/-- What is expected of the tree of a file. -/
structure WellFormed (t : Tree) (file : File) : Prop where
  /-- The root is a module and is a part of no node. -/
  rooted : t.root ∈ t.reached ∧ (∃ body, t.form? t.root = some (.module body)) ∧ t.parent t.root = 0 ∧
    ∀ id ∈ t.reached, t.root ∉ t.children id
  /-- Every other node is a part of one node, once, which is its parent and was written later. -/
  listed : ∀ x ∈ t.reached, x ≠ t.root → t.parent x ∈ t.reached ∧ x < t.parent x ∧
    (t.children (t.parent x)).count x = 1 ∧ ∀ id, x ∈ t.children id ↔ id = t.parent x
  inFile : ∀ x ∈ t.reached, (t.span x).file = file.id ∧ (t.span x).start ≤ (t.span x).stop ∧
    (t.span x).stop ≤ file.content.length
  inside : ∀ x ∈ t.reached, ∀ c ∈ t.children x,
    (t.span x).start ≤ (t.span c).start ∧ (t.span c).stop ≤ (t.span x).stop
  /-- The parts of a node are not empty and stand one behind another. -/
  inLine : ∀ x ∈ t.reached, (∀ c ∈ t.children x, (t.span c).start < (t.span c).stop) ∧
    (t.children x).Pairwise fun c d => (t.span c).stop ≤ (t.span d).start
  spanCheck : t.spanViolation? file = none
  moduleCheck : t.moduleViolation? = none
  /-- A declaration is listed by its container, which is one, and by no other node; -/
  declared : ∀ x ∈ t.reached, t.isDeclaration x = true → t.container x ∈ t.containers ∧
    ∀ c, x ∈ t.decls c ↔ c = t.container x
  /-- nothing else is listed, -/
  declares : ∀ c, ∀ x ∈ t.decls c, x ∈ t.reached ∧ t.isDeclaration x = true
  /-- and the declarations of a container are listed as they start. -/
  declsOrdered : ∀ c, (t.decls c).Pairwise fun d e => (t.span d).start < (t.span e).start

/-- Every node but the root is a part of its parent. -/
theorem Linked.parent_mem (h : t.Linked) {x : Nat} (hx : x ∈ t.reached) (hne : x ≠ t.root) :
    t.parent x ∈ t.reached ∧ x ∈ t.children (t.parent x) := by
  have hroot := h.root_mem_ancestors hx hne
  rw [ancestors] at hroot
  split at hroot
  · exact h.part_parent (by omega)
  · cases hroot

theorem Linked.exists_form (h : t.Linked) (hroot : ∃ body, t.form? t.root = some (.module body)) {x : Nat}
    (hx : x ∈ t.reached) : ∃ f, t.form? x = some f := by
  by_cases hne : x = t.root
  · obtain ⟨body, hmodule⟩ := hroot
    exact ⟨_, hne ▸ hmodule⟩
  · obtain ⟨f, hf, hpart⟩ := mem_children.1 (h.parent_mem hx hne).2
    rw [← Form.map_snd_parts] at hpart
    obtain ⟨p, hp, rfl⟩ := List.mem_map.1 hpart
    obtain ⟨-, -, g, hg, -⟩ := h.fits hf p hp
    exact ⟨g, hg⟩

/-- No node is a part of another one twice. -/
theorem nodup_children (h : Forest t.nodes []) (id : Nat) : (t.children id).Nodup := by
  cases hf : t.form? id with
  | none => simp [children, hf]
  | some f =>
    obtain ⟨hpos, n, hn, rfl⟩ := form?_eq_some.1 hf
    have hnodup : (t.nodes.toList.flatMap (·.form.children)).Nodup := by simpa [allParts] using h.nodup
    have hmem : n ∈ t.nodes.toList := Array.mem_toList_iff.2 (Array.mem_of_getElem? hn)
    simpa [children, hf] using (List.nodup_flatMap.1 hnodup).1 n hmem

theorem wellFormed_of (hlinked : t.Linked) (hforest : Forest t.nodes []) (h : t.IsNeat file)
    (hcontent : file.content.length < offsetLimit) (hpos : 0 < t.root)
    (hroot : ∃ body, t.form? t.root = some (.module body)) : t.WellFormed file := by
  have hform {x : Nat} (hx : x ∈ t.reached) := hlinked.exists_form hroot hx
  have hrootMem : t.root ∈ t.reached := mem_walk.2 (.here hpos)
  constructor
  case rooted =>
    refine ⟨hrootMem, hroot, hlinked.parent_root, fun id hid hmem => ?_⟩
    have := hlinked.parent_part hid hmem
    have := (mem_walk.1 hid).pos_last
    have := hlinked.parent_root
    omega
  case listed =>
    intro x hx hne
    obtain ⟨hmem, hpart⟩ := hlinked.parent_mem hx hne
    refine ⟨hmem, (hlinked.part_lt hpart).2, List.count_eq_one_of_mem (nodup_children hforest _) hpart,
      fun id => ?_⟩
    refine ⟨fun hid => parent_unique hforest hid hpart, ?_⟩
    rintro rfl
    exact hpart
  case inFile =>
    intro x hx
    obtain ⟨f, hf⟩ := hform hx
    exact ⟨(h.node hf).file_eq, (h.node hf).start_le, (h.node hf).stop_le⟩
  case inside => exact fun x _ c hc => h.within hc
  case inLine =>
    intro x hx
    obtain ⟨f, hf⟩ := hform hx
    have hchildren : t.children x = f.children := by simp [children, hf]
    rw [hchildren]
    exact ⟨(h.node hf).solid, (h.node hf).ordered⟩
  case spanCheck =>
    rw [spanViolation?, if_neg (Nat.ne_of_gt hpos), if_neg (Nat.not_le.2 hcontent), List.findSome?_eq_none_iff]
    intro x hx
    obtain ⟨f, hf⟩ := hform hx
    have hneat := h.node hf
    have hparts : (t.children x).find? (fun c => !decide (t.parent c = x)) = none := by
      rw [List.find?_eq_none]
      intro c hc
      simpa using hlinked.parent_part hx hc
    have hfile := hneat.file_eq
    have hle := hneat.start_le
    have hstop := hneat.stop_le
    dsimp only at hfile hle hstop
    simp [nodeViolation?, hparts, hfile, Nat.not_lt.2 hle, Nat.not_lt.2 hstop]
  case moduleCheck =>
    rw [moduleViolation?, List.findSome?_eq_none_iff]
    intro c hc
    obtain ⟨hstart, hstop⟩ := h.within hc
    simp [Nat.not_lt.2 hstart, Nat.not_lt.2 hstop]
  case declared =>
    intro x hx hdecl
    refine ⟨hlinked.container_mem hroot hx hdecl, fun c => ?_⟩
    simp [decls, hlinked.outside_of_isDeclaration hx hdecl, hdecl, eq_comm]
  case declares =>
    intro c x hx
    obtain ⟨hout, hdecl⟩ := List.mem_filter.1 hx
    exact ⟨mem_walk.2 ((mem_walk.1 hout).mono fun _ _ => rfl), (Bool.and_eq_true_iff.1 hdecl).1⟩
  case declsOrdered => exact pairwise_decls hlinked h

/-- Every file that fits is parsed, and its tree is well formed, whatever is wrong with the file and wherever
parsing stops. The recursion of the parser is deep enough for all of the file: if it might go deeper, it would
yield the same. -/
theorem wellFormed_parseFile (file : File) (maxErrors : Nat) (hfits : Fits file maxErrors) :
    ∃ parsed, parseFile file maxErrors = .ok parsed ∧ parsed.tree.WellFormed file ∧
      ∀ depth, Parser.depthFor (Token.ofFile file).1.length ≤ depth →
        Parser.moduleFrom depth ⟨file, maxErrors⟩ { rest := (Token.ofFile file).1 } =
          Parser.module ⟨file, maxErrors⟩ { rest := (Token.ofFile file).1 } := by
  obtain ⟨hpos, hroot⟩ := exists_module_parse file maxErrors
  refine ⟨_, parseFile_of_fits hfits, ?_, fun depth hdepth => Parser.module_eq_of_le hdepth⟩
  exact wellFormed_of (linked_parse file maxErrors) (forest_parse file maxErrors) (neat_parse file maxErrors)
    hfits.content hpos hroot

/-- A function with a parameter, and a statement that is given up. -/
theorem wellFormed_parseFile_of_broken :
    let file := File.ofContent 0 "m.ts" "function f(p: number) { let = 1; }\n".toUTF8.toList 0
    Fits file 0 ∧ ∃ parsed, parseFile file 0 = .ok parsed ∧ parsed.diagnostics ≠ [] ∧
      parsed.tree.WellFormed file := by
  intro file
  have hfits : Fits file 0 := ⟨by decide +kernel, by decide +kernel⟩
  obtain ⟨parsed, hparsed, hwell, -⟩ := wellFormed_parseFile file 0 hfits
  obtain rfl := (parseFile_eq_ok hparsed).2
  exact ⟨hfits, _, hparsed, by decide +kernel, hwell⟩

/-- Not every file is parsed: one whose offsets are too large for words is refused. And not every parameter is
listed: that of a declared function is reached, but belongs to no container. -/
theorem parseFile_limits :
    let large := File.ofContent 0 "m.ts" (List.replicate 4294967296 32) 0
    let declared := File.ofContent 0 "m.ts" "declare function f(p: number): void;\n".toUTF8.toList 0
    parseFile large 0 = .error .content ∧
      ∃ x ∈ (parse declared 0).tree.reached, (parse declared 0).tree.kindName x = "Param" ∧
        ∀ c, x ∉ (parse declared 0).tree.decls c := by
  intro large declared
  have hlength : offsetLimit ≤ large.content.length := by
    rw [show large.content = List.replicate 4294967296 32 from rfl, List.length_replicate]
    exact Nat.le_refl _
  have hdeclaration : (parse declared 0).tree.isDeclaration 2 = false := by decide +kernel
  refine ⟨parseFile_of_le hlength 0, 2, by decide +kernel, by decide +kernel, fun c hmem => ?_⟩
  have hdecl := (List.mem_filter.1 hmem).2
  rw [hdeclaration] at hdecl
  cases hdecl

end Tree

end TypedScript.Ast
