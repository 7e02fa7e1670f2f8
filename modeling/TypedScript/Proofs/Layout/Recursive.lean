import Mathlib.Data.List.Chain
import Mathlib.Logic.Relation
import Mathlib.Order.WellFounded
import TypedScript.Proofs.Layout.History
import TypedScript.Proofs.Ty.Alike

/-!
# Recursive types are told

An object type has no layout if one can go on from it to the type of a property, and on to the type of a property
of that, and never come to an end. As there are finitely many types, such a way comes back to where it was, behind
aliases perhaps, and this is how it is found: by the stack of the object types whose fields are being resolved.

* `Endless`: there is such a way.
* `IsLoop`: the part of it that is told.
* `Blames`: why resolving a type fails, and `tells_from`: it fails for no other reason.
* `layoutOf_exact`: what is answered when an object type is asked for its layout.
-/

namespace TypedScript.Layout

open Ty Interner

variable {types : Interner} {type below root canon : Nat}

/-! ### Ways through properties -/

/-- The type of a property of an object type. -/
def HasProp (types : Interner) (type below : Nat) : Prop :=
  ∃ props, types.resolved? type = some (.object props) ∧ ∃ p ∈ props, p.2 = below

/-- The type is met by going from an object type to the type of a property any number of times. -/
def Reaches (types : Interner) : Nat → Nat → Prop := Relation.ReflTransGen (HasProp types)

/-- One can go from type to type of a property forever. -/
def Endless (types : Interner) (type : Nat) : Prop :=
  ∃ chain : Nat → Nat, chain 0 = type ∧ ∀ n, HasProp types (chain n) (chain (n + 1))

/-- Behind aliases there is a type other than that of null. -/
def IsRepresentable (types : Interner) (type : Nat) : Prop := ∃ t, types.resolved? type = some t ∧ t ≠ .null

/-- A way through properties that ends with the object type it starts with, which aliases may name differently. -/
structure IsLoop (types : Interner) (canon : Nat) (loop : List Nat) : Prop where
  chain : loop.IsChain (HasProp types)
  closed : ∃ first between last, loop = first :: (between ++ [last]) ∧ types.unalias first = canon ∧
    types.unalias last = canon

theorem isRepresentable_iff : IsRepresentable types type ↔
    (flatRep? types type).isSome ∨ ∃ props, types.resolved? type = some (.object props) := by
  unfold IsRepresentable flatRep?
  cases htype : types.resolved? type with
  | none => simp
  | some t =>
    cases t with
    | synonym name target => exact absurd htype (follow_ne_synonym _ _ name target)
    | _ => simp

/-- A type is represented exactly if every way through its properties ends. -/
theorem isSized_iff_acc (h : ∀ below, Reaches types type below → IsRepresentable types below) :
    IsSized types type ↔ Acc (fun below type => HasProp types type below) type := by
  constructor
  · intro hsized
    clear h
    induction hsized with
    | flat hflat =>
      refine .intro _ fun below hstep => ?_
      obtain ⟨props, hprops, -⟩ := hstep
      rw [flatRep?_object hprops] at hflat
      cases hflat
    | @object type props hprops _ ih =>
      refine .intro _ fun below hstep => ?_
      obtain ⟨props', hprops', p, hp, rfl⟩ := hstep
      obtain rfl : props' = props := by simpa using hprops'.symm.trans hprops
      exact ih p hp
  · intro hacc
    induction hacc with
    | intro type _ ih =>
      rcases isRepresentable_iff.1 (h type .refl) with hflat | ⟨props, hprops⟩
      · obtain ⟨rep, hrep⟩ := Option.isSome_iff_exists.1 hflat
        exact .flat hrep
      · refine .object hprops fun p hp => ?_
        have hstep : HasProp types type p.2 := ⟨props, hprops, p, hp, rfl⟩
        exact ih p.2 hstep fun below hbelow => h below (.head hstep hbelow)

theorem endless_iff_not_isSized (h : ∀ below, Reaches types type below → IsRepresentable types below) :
    Endless types type ↔ ¬ IsSized types type := by
  rw [isSized_iff_acc h, not_acc_iff_exists_descending_chain]
  rfl

/-! ### Why resolving fails -/

namespace Registry

variable {r r' : Registry} {α β : Type} {E : Error → Prop}

/-- An error of a computation has the property. -/
def FailsOnly (r : Registry) (act : LayoutM α) (E : Error → Prop) : Prop := ∀ e, (act.run.run r).1 = .error e → E e

theorem FailsOnly.pure (a : α) : FailsOnly r (pure a : LayoutM α) E := by
  intro e he
  cases he

theorem FailsOnly.throw {e : Error} (h : E e) : FailsOnly r (throw e : LayoutM α) E := by
  intro e' he
  cases he
  exact h

theorem FailsOnly.get_bind {f : Registry → LayoutM α} (h : FailsOnly r (f r) E) : FailsOnly r (get >>= f) E := h

theorem FailsOnly.bind {x : LayoutM α} {f : α → LayoutM β} (hx : FailsOnly r x E)
    (hf : ∀ a, (x.run.run r).1 = .ok a → FailsOnly (x.run.run r).2 (f a) E) : FailsOnly r (x >>= f) E := by
  intro e he
  cases hout : (x.run.run r).1 with
  | ok a =>
    rw [run_bind_ok f hout] at he
    exact hf a hout e he
  | error e' =>
    rw [run_bind_error f hout] at he
    cases he
    exact hx e hout

theorem FailsOnly.within {act : LayoutM α} (h : FailsOnly (r.enter canon type) act E) : FailsOnly r
    (within canon type act) E := by
  intro e he
  rw [run_within] at he
  exact h e he

theorem FailsOnly.layoutOfShape (type canon : Nat) (specs : List FieldSpec) :
    FailsOnly r (layoutOfShape types type canon specs) E := by
  intro e he
  cases hfound : (r.byShape.lookup (shapeKey specs)).bind r.descriptor? with
  | some d =>
    rw [run_layoutOfShape_of_some types type canon hfound] at he
    cases he
  | none =>
    obtain ⟨name, unnamed, d, -, hrun⟩ := run_layoutOfShape_of_none types type canon hfound
    rw [hrun] at he
    cases he

/-- The induction is on the list; the registry grows from element to element. -/
theorem FailsOnly.mapM {f : β → LayoutM α} {xs : List β} (h : Settled types r)
    (hleads : ∀ x ∈ xs, ∀ r', Grows r r' → Settled types r' → Leads types r' (f x) (fun _ _ => True) True)
    (hf : ∀ x ∈ xs, ∀ r', Grows r r' → Settled types r' → FailsOnly r' (f x) E) : FailsOnly r (xs.mapM f) E := by
  induction xs generalizing r with
  | nil =>
    rw [List.mapM_nil]
    exact .pure _
  | cons x xs ih =>
    rw [List.mapM_cons]
    have hhead := hleads x List.mem_cons_self r (.refl r) h
    refine (hf x List.mem_cons_self r (.refl r) h).bind fun a _ => ?_
    have htail : FailsOnly (((f x).run.run r).2) (xs.mapM f) E := by
      refine ih hhead.settled (fun y hy r' hr' hs => ?_) fun y hy r' hr' hs => ?_
      · exact hleads y (List.mem_cons_of_mem x hy) r' (hhead.grows.trans hr') hs
      · exact hf y (List.mem_cons_of_mem x hy) r' (hhead.grows.trans hr') hs
    exact htail.bind fun _ _ => .pure _

/-- Why the type `root` is not represented: one comes from it to a loop, or to a type without a representation. -/
inductive Blames (types : Interner) (root : Nat) : Error → Prop
  | recursive {canon : Nat} {loop : List Nat} : IsLoop types canon loop → (∀ type ∈ loop, Reaches types root type) →
      Blames types root (.recursive canon (loop.map (displayName types)))
  | notStructural {type : Nat} : Reaches types root type → ¬ IsRepresentable types type →
      Blames types root (.notStructural type (types.render type))

/-- What is on the index when a property of an object type that has been entered is resolved. -/
theorem below_enter (hbelow : ∀ c ∈ r.index.map (·.1), Contains types c type) {props : List (String × Nat)}
    (hprops : types.resolved? type = some (.object props)) {p : String × Nat} (hp : p ∈ props)
    (hgrows : Grows (r.enter (types.unalias type) type) r') :
    (∀ c ∈ r'.index.map (·.1), Contains types c p.2) ∧ r'.index.length = r.index.length + 1 := by
  rw [hgrows.index]
  refine ⟨fun c hc => ?_, rfl⟩
  rcases List.mem_cons.1 hc with rfl | hc
  · exact .prop hprops hp
  · exact .deeper (hbelow c hc) hprops hp

/-- Resolving a property of an object type that has been entered keeps what the registry knows. -/
theorem leads_prop {depth : Nat} (hdepth : 2 * types.types.size ≤ depth + 2 * r.index.length)
    (hbelow : ∀ c ∈ r.index.map (·.1), Contains types c type) {props : List (String × Nat)}
    (hprops : types.resolved? type = some (.object props)) {p : String × Nat} (hp : p ∈ props)
    (hgrows : Grows (r.enter (types.unalias type) type) r') (hr' : Settled types r') :
    Leads types r' (do return (⟨p.1, ← resolveFrom types depth p.2⟩ : FieldSpec)) (fun _ _ => True) True := by
  obtain ⟨hbelow', hlength⟩ := below_enter hbelow hprops hp hgrows
  have hresolve := (Resolves.all types depth).resolve r' p.2 hr' (by omega) hbelow'
  exact (hresolve.imp (fun _ _ => id) fun _ => trivial).bind fun r'' rep _ hr'' _ => .pure hr'' trivial

/-- The stack is a way from the type `root` to the type that is being resolved, and the index tells where on it an
object type stands. -/
structure Lined (types : Interner) (root : Nat) (r : Registry) (type : Nat) : Prop where
  chain : (r.stack ++ [type]).IsChain (HasProp types)
  reached : ∀ x ∈ r.stack ++ [type], Reaches types root x
  index : ∀ canon place, r.index.lookup canon = some place → ∃ x, r.stack[place]? = some x ∧ types.unalias x = canon
  below : ∀ c ∈ r.index.map (·.1), Contains types c type

theorem Lined.grows (h : Lined types root r type) (hgrows : Grows r r') : Lined types root r' type where
  chain := hgrows.stack ▸ h.chain
  reached := hgrows.stack ▸ h.reached
  index := hgrows.index ▸ hgrows.stack ▸ h.index
  below := hgrows.index ▸ h.below

/-- An object type has been entered, and the type of a property is resolved next. -/
theorem Lined.enter (h : Lined types root r type) {props : List (String × Nat)}
    (hprops : types.resolved? type = some (.object props)) {p : String × Nat} (hp : p ∈ props) :
    Lined types root (r.enter (types.unalias type) type) p.2 := by
  have hstep : HasProp types type p.2 := ⟨props, hprops, p, hp, rfl⟩
  constructor
  case chain =>
    show ((r.stack ++ [type]) ++ [p.2]).IsChain (HasProp types)
    refine List.isChain_append.2 ⟨h.chain, .singleton _, ?_⟩
    simpa using hstep
  case reached =>
    intro x hx
    rcases List.mem_append.1 hx with hx | hx
    · exact h.reached x hx
    · obtain rfl := List.mem_singleton.1 hx
      exact (h.reached type (List.mem_append_right _ List.mem_cons_self)).tail hstep
  case index =>
    intro canon place hplace
    show ∃ x, (r.stack ++ [type])[place]? = some x ∧ _
    have hlookup : ((types.unalias type, r.stack.length) :: r.index).lookup canon = some place := hplace
    clear hplace
    rw [List.lookup_cons] at hlookup
    split at hlookup
    · rename_i heq
      obtain rfl := beq_iff_eq.1 heq
      obtain rfl := Option.some.inj hlookup
      exact ⟨type, by simp, rfl⟩
    · obtain ⟨x, hx, hcanon⟩ := h.index canon place hlookup
      have hlt := (List.getElem?_eq_some_iff.1 hx).1
      exact ⟨x, by rw [List.getElem?_append_left hlt, hx], hcanon⟩
  case below =>
    exact (below_enter h.below hprops hp (.refl _)).1

/-- The part of the stack from where the object type stands that is met again. -/
theorem Lined.isLoop (h : Lined types root r type) {place : Nat}
    (hplace : r.index.lookup (types.unalias type) = some place) :
    IsLoop types (types.unalias type) (r.stack.drop place ++ [type]) := by
  obtain ⟨x, hx, hcanon⟩ := h.index _ place hplace
  obtain ⟨hlt, rfl⟩ := List.getElem?_eq_some_iff.1 hx
  constructor
  case chain =>
    have hsuffix : (r.stack.drop place ++ [type]) <:+ (r.stack ++ [type]) :=
      ⟨r.stack.take place, by rw [← List.append_assoc, List.take_append_drop]⟩
    exact h.chain.suffix hsuffix
  case closed =>
    refine ⟨r.stack[place], r.stack.drop (place + 1), type, ?_, hcanon, rfl⟩
    rw [List.drop_eq_getElem_cons hlt, List.cons_append]

/-- Resolving a type down to a depth fails only because of what is met below it. -/
structure Tells (types : Interner) (root depth : Nat) : Prop where
  resolve : ∀ r type, Settled types r → 2 * types.types.size + 2 ≤ depth + 2 * r.index.length →
    Lined types root r type →
    FailsOnly r (resolveFrom types depth type) (Blames types root)
  layout : ∀ r type props, Settled types r → 2 * types.types.size + 1 ≤ depth + 2 * r.index.length →
    Lined types root r type →
    types.resolved? type = some (.object props) → FailsOnly r (layoutFrom types depth type) (Blames types root)

theorem Tells.zero (types : Interner) (root : Nat) : Tells types root 0 where
  resolve r type h hdepth _ := by
    have hle := h.length_index_le
    omega
  layout r type props h hdepth _ _ := by
    have hle := h.length_index_le
    omega

theorem Tells.resolve_succ {depth : Nat} (h : Tells types root depth) (hr : Settled types r)
    (hdepth : 2 * types.types.size + 2 ≤ depth + 1 + 2 * r.index.length) (hlined : Lined types root r type) :
    FailsOnly r (resolveFrom types (depth + 1) type) (Blames types root) := by
  cases hflat : flatRep? types type with
  | some rep =>
    rw [resolveFrom_flat depth hflat]
    exact .pure rep
  | none =>
    by_cases hobject : ∃ props, types.resolved? type = some (.object props)
    · obtain ⟨props, hprops⟩ := hobject
      rw [resolveFrom_object depth hprops]
      exact (h.layout r type props hr (by omega) hlined hprops).bind fun d _ => .pure _
    · have hnone : ∀ props, types.resolved? type ≠ some (.object props) :=
        fun props hprops => hobject ⟨props, hprops⟩
      rw [resolveFrom_other depth hflat hnone]
      refine .throw (.notStructural (hlined.reached type (List.mem_append_right _ List.mem_cons_self)) ?_)
      rw [isRepresentable_iff, hflat]
      simpa using hnone

theorem Tells.layout_succ {depth : Nat} (h : Tells types root depth) (hr : Settled types r)
    (hdepth : 2 * types.types.size + 1 ≤ depth + 1 + 2 * r.index.length) (hlined : Lined types root r type)
    {props : List (String × Nat)} (hprops : types.resolved? type = some (.object props)) :
    FailsOnly r (layoutFrom types (depth + 1) type) (Blames types root) := by
  have hlookup : types.lookup? (types.unalias type) = some (.object props) := hprops
  unfold layoutFrom
  refine .get_bind ?_
  cases hfound : (r.byType.lookup (types.unalias type)).bind r.descriptor? with
  | some d => exact .pure d
  | none =>
    dsimp only
    rw [hlookup]
    cases hoff : r.index.lookup (types.unalias type) with
    | some place =>
      refine .throw (.recursive (hlined.isLoop hoff) fun x hx => hlined.reached x ?_)
      rcases List.mem_append.1 hx with hx | hx
      · exact List.mem_append_left _ (List.drop_subset place _ hx)
      · exact List.mem_append_right _ hx
    | none =>
      have hnew := lookup_eq_none (fun c tag htag => (hr.byType c tag htag).has) hfound
      have hentered := hr.enter hoff hnew hprops type
      -- resolving a property leaves the stack as it was, so that the next one is met on the same way
      have hfields : FailsOnly (r.enter (types.unalias type) type)
          (props.mapM fun p => return (⟨p.1, ← resolveFrom types depth p.2⟩ : FieldSpec)) (Blames types root) := by
        refine .mapM hentered (fun p hp r' hgrows hr' => ?_) fun p hp r' hgrows hr' => ?_
        · exact leads_prop (by omega) hlined.below hprops hp hgrows hr'
        · have hlength := (below_enter hlined.below hprops hp hgrows).2
          have hlined' := (hlined.enter hprops hp).grows hgrows
          exact (h.resolve r' p.2 hr' (by omega) hlined').bind fun rep _ => .pure _
      exact .within (hfields.bind fun specs _ => .layoutOfShape type _ specs)

theorem tells_from (types : Interner) (root depth : Nat) : Tells types root depth := by
  induction depth with
  | zero => exact .zero types root
  | succ depth ih =>
    constructor
    · intro r type hr hdepth hlined
      exact ih.resolve_succ hr hdepth hlined
    · intro r type props hr hdepth hlined hprops
      exact ih.layout_succ hr hdepth hlined hprops

/-! ### The depth is never used up -/

theorem run_bind_congr {x y : LayoutM α} {f g : α → LayoutM β} (hxy : x.run.run r = y.run.run r)
    (hfg : ∀ a, (x.run.run r).1 = .ok a → (f a).run.run (x.run.run r).2 = (g a).run.run (x.run.run r).2) :
    (x >>= f).run.run r = (y >>= g).run.run r := by
  cases hout : (x.run.run r).1 with
  | ok a => rw [run_bind_ok f hout, run_bind_ok g (hxy ▸ hout), hfg a hout, hxy]
  | error e => rw [run_bind_error f hout, run_bind_error g (hxy ▸ hout), hxy]

/-- The induction is on the list; the registry grows from element to element. -/
theorem run_mapM_congr {f g : β → LayoutM α} {l : List β} (h : Settled types r)
    (hleads : ∀ x ∈ l, ∀ r', Grows r r' → Settled types r' → Leads types r' (f x) (fun _ _ => True) True)
    (hfg : ∀ x ∈ l, ∀ r', Grows r r' → Settled types r' → (f x).run.run r' = (g x).run.run r') :
    (l.mapM f).run.run r = (l.mapM g).run.run r := by
  induction l generalizing r with
  | nil => rw [List.mapM_nil, List.mapM_nil]
  | cons x xs ih =>
    rw [List.mapM_cons, List.mapM_cons]
    have hhead := hleads x List.mem_cons_self r (.refl r) h
    refine run_bind_congr (hfg x List.mem_cons_self r (.refl r) h) fun a _ => run_bind_congr ?_ fun _ _ => rfl
    refine ih hhead.settled (fun y hy r' hr' hs => ?_) fun y hy r' hr' hs => ?_
    · exact hleads y (List.mem_cons_of_mem x hy) r' (hhead.grows.trans hr') hs
    · exact hfg y (List.mem_cons_of_mem x hy) r' (hhead.grows.trans hr') hs

/-- From this depth on, one more changes nothing. -/
structure Steady (types : Interner) (depth : Nat) : Prop where
  resolve : ∀ r type, Settled types r → 2 * types.types.size + 2 ≤ depth + 2 * r.index.length →
    (∀ c ∈ r.index.map (·.1), Contains types c type) →
    (resolveFrom types (depth + 1) type).run.run r = (resolveFrom types depth type).run.run r
  layout : ∀ r type props, Settled types r → 2 * types.types.size + 1 ≤ depth + 2 * r.index.length →
    (∀ c ∈ r.index.map (·.1), Contains types c type) → types.resolved? type = some (.object props) →
    (layoutFrom types (depth + 1) type).run.run r = (layoutFrom types depth type).run.run r

theorem Steady.zero (types : Interner) : Steady types 0 where
  resolve r type h hdepth _ := by
    have hle := h.length_index_le
    omega
  layout r type props h hdepth _ _ := by
    have hle := h.length_index_le
    omega

theorem Steady.resolve_succ {depth : Nat} (h : Steady types depth) (hr : Settled types r)
    (hdepth : 2 * types.types.size + 2 ≤ depth + 1 + 2 * r.index.length)
    (hbelow : ∀ c ∈ r.index.map (·.1), Contains types c type) :
    (resolveFrom types (depth + 2) type).run.run r = (resolveFrom types (depth + 1) type).run.run r := by
  cases hflat : flatRep? types type with
  | some rep => rw [resolveFrom_flat _ hflat, resolveFrom_flat _ hflat]
  | none =>
    by_cases hobject : ∃ props, types.resolved? type = some (.object props)
    · obtain ⟨props, hprops⟩ := hobject
      rw [resolveFrom_object _ hprops, resolveFrom_object _ hprops]
      exact run_bind_congr (h.layout r type props hr (by omega) hbelow hprops) fun _ _ => rfl
    · have hnone : ∀ props, types.resolved? type ≠ some (.object props) :=
        fun props hprops => hobject ⟨props, hprops⟩
      rw [resolveFrom_other _ hflat hnone, resolveFrom_other _ hflat hnone]

theorem Steady.layout_succ {depth : Nat} (h : Steady types depth) (hr : Settled types r)
    (hdepth : 2 * types.types.size + 1 ≤ depth + 1 + 2 * r.index.length)
    (hbelow : ∀ c ∈ r.index.map (·.1), Contains types c type) {props : List (String × Nat)}
    (hprops : types.resolved? type = some (.object props)) :
    (layoutFrom types (depth + 2) type).run.run r = (layoutFrom types (depth + 1) type).run.run r := by
  have hlookup : types.lookup? (types.unalias type) = some (.object props) := hprops
  unfold layoutFrom
  rw [run_get_bind, run_get_bind]
  dsimp only
  cases hfound : (r.byType.lookup (types.unalias type)).bind r.descriptor? with
  | some d => rfl
  | none =>
    dsimp only
    rw [hlookup]
    cases hoff : r.index.lookup (types.unalias type) with
    | some place => rfl
    | none =>
      have hnew := lookup_eq_none (fun c tag htag => (hr.byType c tag htag).has) hfound
      have hentered := hr.enter hoff hnew hprops type
      dsimp only
      rw [run_within, run_within]
      have hfields := run_mapM_congr (f := fun p => return (⟨p.1, ← resolveFrom types (depth + 1) p.2⟩ : FieldSpec))
        (g := fun p => return (⟨p.1, ← resolveFrom types depth p.2⟩ : FieldSpec)) (l := props) hentered
        (fun p hp r' hgrows hr' => leads_prop (by omega) hbelow hprops hp hgrows hr') fun p hp r' hgrows hr' => by
          obtain ⟨hbelow', hlength⟩ := below_enter hbelow hprops hp hgrows
          exact run_bind_congr (h.resolve r' p.2 hr' (by omega) hbelow') fun _ _ => rfl
      rw [run_bind_congr hfields fun _ _ => rfl]

theorem steady_from (types : Interner) (depth : Nat) : Steady types depth := by
  induction depth with
  | zero => exact .zero types
  | succ depth ih =>
    constructor
    · intro r type hr hdepth hbelow
      exact ih.resolve_succ hr hdepth hbelow
    · intro r type props hr hdepth hbelow hprops
      exact ih.layout_succ hr hdepth hbelow hprops

/-- Going deeper than `depthFor` does not change what becomes of a call. -/
theorem run_layoutFrom_of_le (h : Settled types r) (hindex : r.index = []) {props : List (String × Nat)}
    (hprops : types.resolved? type = some (.object props)) {depth : Nat} (hdepth : depthFor types ≤ depth) :
    (layoutFrom types depth type).run.run r = (layoutOf types type).run.run r := by
  unfold depthFor at hdepth
  induction depth, hdepth using Nat.le_induction with
  | base => rfl
  | succ depth hle ih =>
    rw [(steady_from types depth).layout r type props h (by omega) (by simp [hindex]) hprops, ih]

/-! ### Asking for a layout -/

/-- What becomes of a call for the layout of a type, below which all types are representable. -/
structure Exact (types : Interner) (r : Registry) (type : Nat) : Prop where
  /-- The depth that resolving may go down to is never used up. -/
  terminates : ∀ depth, depthFor types ≤ depth → (layoutFrom types depth type).run.run r =
    (layoutOf types type).run.run r
  /-- The call fails, telling of a recursive type, exactly if the way through the properties may go on forever. -/
  recursive_iff : (∃ canon cycle, (Call.layoutOf type).answer types r = .error (.recursive canon cycle)) ↔
    Endless types type
  /-- The types that it tells are those of a loop below the type. -/
  cycle : ∀ canon cycle, (Call.layoutOf type).answer types r = .error (.recursive canon cycle) →
    ∃ loop, IsLoop types canon loop ∧ (∀ x ∈ loop, Reaches types type x) ∧ cycle = loop.map (displayName types)
  /-- A call that does not fail so does not fail. -/
  otherwise : (∀ canon cycle, (Call.layoutOf type).answer types r ≠ .error (.recursive canon cycle)) →
    ∃ d, (Call.layoutOf type).answer types r = .ok (.layout d)

theorem lined_of_resting (h : Resting types r) (type : Nat) : Lined types type r type where
  chain := by simp [h.stack]
  reached x hx := by
    rw [h.stack] at hx
    obtain rfl := List.mem_singleton.1 hx
    exact .refl
  index canon place hplace := by
    rw [h.index] at hplace
    cases hplace
  below := by simp [h.index]

theorem answer_layoutOf (types : Interner) (type : Nat) (r : Registry) : (Call.layoutOf type).answer types r =
    ((layoutOf types type).run.run r).1.map Answer.layout := by
  show ((layoutOf types type >>= fun d => pure (Answer.layout d)).run.run r).1 = _
  cases hout : ((layoutOf types type).run.run r).1 with
  | ok d =>
    rw [run_bind_ok _ hout]
    rfl
  | error e =>
    rw [run_bind_error _ hout]
    rfl

/-- Whatever a registry was asked before, an object type below which all types are representable gets a layout,
unless one can go through its properties forever. Then the call fails and a loop is told. -/
theorem layoutOf_exact (target : Target) (calls : List Call)
    (hobject : ∃ props, types.resolved? type = some (.object props))
    (hbelow : ∀ below, Reaches types type below → IsRepresentable types below) :
    Exact types (after types target calls) type := by
  obtain ⟨props, hprops⟩ := hobject
  have hrest := resting_after types target calls
  have hleads := leads_layoutOf hrest.settled hrest.index hprops
  have hdepth : 2 * types.types.size + 1 ≤ depthFor types + 2 * (after types target calls).index.length := by
    unfold depthFor
    omega
  have hblames {e : Error} (he : (Call.layoutOf type).answer types (after types target calls) = .error e) :
      Endless types type ∧ Blames types type e := by
    have hout : ((layoutOf types type).run.run (after types target calls)).1 = .error e := by
      rw [answer_layoutOf] at he
      revert he
      cases ((layoutOf types type).run.run (after types target calls)).1 <;> simp [Except.map]
    refine ⟨(endless_iff_not_isSized hbelow).2 (hleads.error e hout), ?_⟩
    exact (tells_from types type (depthFor types)).layout _ type props hrest.settled hdepth
      (lined_of_resting hrest type) hprops e hout
  have hcycle {e : Error} (he : (Call.layoutOf type).answer types (after types target calls) = .error e) :
      ∃ canon loop, IsLoop types canon loop ∧ (∀ x ∈ loop, Reaches types type x) ∧
        e = .recursive canon (loop.map (displayName types)) := by
    cases (hblames he).2 with
    | recursive hloop hreached => exact ⟨_, _, hloop, hreached, rfl⟩
    | notStructural hreached hnot => exact absurd (hbelow _ hreached) hnot
  constructor
  case terminates => exact fun depth hle => run_layoutFrom_of_le hrest.settled hrest.index hprops hle
  case recursive_iff =>
    constructor
    · rintro ⟨canon, cycle, he⟩
      exact (hblames he).1
    · intro hendless
      cases hout : (Call.layoutOf type).answer types (after types target calls) with
      | error e =>
        obtain ⟨canon, loop, -, -, rfl⟩ := hcycle hout
        exact ⟨canon, _, rfl⟩
      | ok a =>
        have hcall := leads_call hrest.settled hrest.index (.layoutOf type)
        cases hcall.ok a hout with
        | layout hprops' _ hnoted =>
          have hsized := (isSized_unalias hprops').1 (hcall.settled.byType _ _ hnoted).sized
          exact absurd hsized ((endless_iff_not_isSized hbelow).1 hendless)
  case cycle =>
    intro canon cycle he
    obtain ⟨canon', loop, hloop, hreached, heq⟩ := hcycle he
    cases heq
    exact ⟨loop, hloop, hreached, rfl⟩
  case otherwise =>
    intro hnot
    cases hout : (Call.layoutOf type).answer types (after types target calls) with
    | error e =>
      obtain ⟨canon, loop, -, -, rfl⟩ := hcycle hout
      exact absurd hout (hnot _ _)
    | ok a =>
      cases (leads_call hrest.settled hrest.index (.layoutOf type)).ok a hout with
      | layout _ _ _ => exact ⟨_, rfl⟩

/-- A list is a value and the list that comes next. Its type is told as `List -> List`, by its alias both times. -/
theorem layoutOf_exact_list :
    let ts := ((({} : Interner).newAlias "List").2.object [("next", 10), ("value", 3)]).2.setAlias 10 11
    Exact ts (after ts {} [.resolve 3, .layoutOf 11]) 10 := by
  intro ts
  have hlist : ts.resolved? 10 = some (.object [("next", 10), ("value", 3)]) := by decide +kernel
  have hnumber : ts.resolved? 3 = some .number := by decide +kernel
  have hreached : ∀ below, Reaches ts 10 below → below = 10 ∨ below = 3 := by
    intro below hbelow
    induction hbelow with
    | refl => exact .inl rfl
    | tail _ hstep ih =>
      obtain ⟨props, hprops, p, hp, rfl⟩ := hstep
      rcases ih with rfl | rfl
      · obtain rfl : [("next", 10), ("value", 3)] = props := by simpa using hlist.symm.trans hprops
        rcases List.mem_pair.1 hp with rfl | rfl
        · exact .inl rfl
        · exact .inr rfl
      · cases hnumber.symm.trans hprops
  refine layoutOf_exact {} [.resolve 3, .layoutOf 11] ⟨_, hlist⟩ fun below hbelow => ?_
  rcases hreached below hbelow with rfl | rfl
  · exact ⟨_, hlist, by simp⟩
  · exact ⟨_, hnumber, by simp⟩

end Registry

end TypedScript.Layout
