import TypedScript.Proofs.Layout.Settled

/-!
# Calls of a registry, one after another

A registry is asked for representations, for layouts of object types and for layouts of scope objects, in any
order, and some of these calls may fail. Whatever was asked before, a layout that was given out is given out again
for the same type or scope, and a type that had no layout never gets one.

* `Call`, `after`: what can be asked, and the registry after a sequence of calls.
* `leads_call`: what one call keeps, and `resting_after`: what holds after any number of them.
* `wellKept_after`: the invariant of registries.
-/

namespace TypedScript.Layout.Registry

open Ty

/-- What a registry can be asked for. -/
inductive Call where
  | resolve (type : Nat)
  | layoutOf (type : Nat)
  | scope (key : String) (locals : List FieldSpec)

/-- What a registry answers. -/
inductive Answer where
  | rep (rep : Rep)
  | layout (d : Descriptor)
  deriving DecidableEq

namespace Call

/-- Carries out a call. -/
def act (types : Interner) : Call → LayoutM Answer
  | resolve type => return .rep (← Registry.resolve types type)
  | layoutOf type => return .layout (← Registry.layoutOf types type)
  | scope key locals => modifyGet fun r => let (r, d) := r.scope key locals; (.layout d, r)

/-- The answer to a call, unless it fails. -/
def answer (types : Interner) (c : Call) (r : Registry) : Except Error Answer := ((c.act types).run.run r).1

/-- The registry after a call, whether it fails or not. -/
def next (types : Interner) (c : Call) (r : Registry) : Registry := ((c.act types).run.run r).2

end Call

/-- The registry after calls, one after another. -/
def after (types : Interner) (target : Target) (calls : List Call) : Registry :=
  calls.foldl (fun r c => c.next types r) (ofTarget target)

variable {types : Interner} {target : Target} {r r' : Registry} {d : Descriptor} {type : Nat} {rep : Rep}

theorem after_append (calls more : List Call) :
    after types target (calls ++ more) = more.foldl (fun r c => c.next types r) (after types target calls) := by
  simp [after]

theorem after_concat (calls : List Call) (c : Call) :
    after types target (calls ++ [c]) = c.next types (after types target calls) := by
  simp [after]

/-! ### One call -/

theorem leads_resolve (h : Settled types r) (hindex : r.index = []) (type : Nat) :
    Leads types r (resolve types type) (fun r' rep => Represents types r' type rep) (¬ IsSized types type) := by
  have hdepth : 2 * types.types.size + 2 ≤ depthFor types + 2 * r.index.length := by
    unfold depthFor
    omega
  exact (Resolves.all types (depthFor types)).resolve r type h hdepth (by simp [hindex])

/-- An object type gets its layout if it is represented. -/
theorem leads_layoutOf (h : Settled types r) (hindex : r.index = []) {props : List (String × Nat)}
    (hprops : types.resolved? type = some (.object props)) : Leads types r (layoutOf types type)
      (fun r' d => d ∈ r'.all ∧ r'.byType.lookup (types.unalias type) = some d.tag) (¬ IsSized types type) := by
  have hdepth : 2 * types.types.size + 1 ≤ depthFor types + 2 * r.index.length := by
    unfold depthFor
    omega
  exact (Resolves.all types (depthFor types)).layout r type props h hdepth (by simp [hindex]) hprops

/-- What is no object type has no layout. -/
theorem run_layoutOf_of_not_object (h : Settled types r)
    (hobject : ∀ props, types.resolved? type ≠ some (.object props)) :
    (layoutOf types type).run.run r = (.error (.notStructural type (types.render type)), r) := by
  have hnone : (r.byType.lookup (types.unalias type)).bind r.descriptor? = none := by
    cases hnoted : r.byType.lookup (types.unalias type) with
    | none => rfl
    | some tag =>
      obtain ⟨props, _, hprops, -⟩ := (h.byType _ tag hnoted).shape
      exact absurd hprops (hobject props)
  unfold layoutOf depthFor layoutFrom
  rw [run_get_bind]
  dsimp only
  rw [hnone]
  dsimp only
  split
  · rename_i props hprops
    exact absurd hprops (hobject props)
  · rfl

/-- A scope that has a layout keeps it; another gets one. -/
theorem Settled.scope (h : Settled types r) (key : String) (locals : List FieldSpec) :
    Settled types (r.scope key locals).1 ∧ Grows r (r.scope key locals).1 ∧
      (r.scope key locals).1.scopes.lookup key = some (r.scope key locals).2.tag := by
  cases hfound : (r.scopes.lookup key).bind r.descriptor? with
  | some d =>
    have hscope : r.scope key locals = (r, d) := by
      unfold Registry.scope
      rw [hfound]
    obtain ⟨tag, htag, hd⟩ := Option.bind_eq_some_iff.1 hfound
    obtain rfl : d.tag = tag := by simpa using List.find?_some hd
    rw [hscope]
    exact ⟨h, .refl r, htag⟩
  | none =>
    have hnew := lookup_eq_none h.scopes hfound
    generalize hd : ({ build r.target (r.all.length + 1) ("scope." ++ key) .scope
      (⟨parentField, .scope⟩ :: locals) with
      type := 0 } : Descriptor) = d
    have hscope : r.scope key locals = ({ r with all := r.all ++ [d], scopes := (key, d.tag) :: r.scopes }, d) := by
      unfold Registry.scope
      rw [hfound, ← hd]
      rfl
    have hkind : d.kind = .scope := by
      rw [← hd]
      rfl
    have hnumbered := (extends_scope r key locals).1.numbered h.numbered
    rw [hscope] at hnumbered ⊢
    have hsubset : r.all ⊆ r.all ++ [d] := List.subset_append_left _ _
    refine ⟨?_, ?_, List.lookup_cons_self⟩
    · constructor
      case numbered => exact hnumbered
      case byType =>
        intro canon tag hnoted
        exact (h.byType canon tag hnoted).mono hsubset rfl fun _ _ => id
      case byShape =>
        intro key tag hkey
        exact (h.byShape key tag hkey).mono hsubset rfl fun _ _ => id
      case scopes => exact has_of_lookup_cons (List.mem_append_right _ List.mem_cons_self) h.scopes hsubset
      case rooted =>
        intro e he hobject
        rcases List.mem_append.1 he with he | he
        · exact (h.rooted e he hobject).mono hsubset fun _ _ => id
        · obtain rfl := List.mem_singleton.1 he
          rw [hkind] at hobject
          cases hobject
      case nodup => exact h.nodup
      case pending => exact h.pending
    · exact ⟨rfl, List.prefix_append _ _, fun _ _ => id, fun _ _ => lookup_cons_of_none hnew, rfl, rfl⟩

/-- The answer is what the registry has noted. -/
inductive Noted (types : Interner) (r : Registry) : Call → Answer → Prop
  | rep {type : Nat} {rep : Rep} : Represents types r type rep → Noted types r (.resolve type) (.rep rep)
  | layout {type : Nat} {props : List (String × Nat)} {d : Descriptor} : types.resolved? type = some
      (.object props) →
      d ∈ r.all → r.byType.lookup (types.unalias type) = some d.tag → Noted types r (.layoutOf type) (.layout d)
  | scope {key : String} {locals : List FieldSpec} {d : Descriptor} : d ∈ r.all → r.scopes.lookup key = some d.tag →
      Noted types r (.scope key locals) (.layout d)

theorem Noted.mono {c : Call} {a : Answer} (h : Noted types r c a) (hgrows : Grows r r') : Noted types r' c a := by
  cases h with
  | rep hrep => exact .rep (hrep.mono hgrows.all.subset hgrows.byType)
  | layout hprops hd hnoted => exact .layout hprops (hgrows.all.subset hd) (hgrows.byType _ _ hnoted)
  | scope hd hnoted => exact .scope (hgrows.all.subset hd) (hgrows.scopes _ _ hnoted)

/-- No object of the type can be laid out. -/
def HasNoLayout (types : Interner) (type : Nat) : Prop :=
  ∀ props, types.resolved? type = some (.object props) → ¬ IsSized types type

/-- The call is about a type of which no object can be laid out. -/
def Call.Fails (types : Interner) : Call → Prop
  | resolve type | layoutOf type => HasNoLayout types type
  | scope .. => False

/-- A call keeps what the registry knows, and its answer is noted. -/
theorem leads_call (h : Settled types r) (hindex : r.index = []) (c : Call) :
    Leads types r (c.act types) (fun r' a => Noted types r' c a) (c.Fails types) := by
  cases c with
  | resolve type =>
    have hresolve := leads_resolve h hindex type
    exact (hresolve.imp (fun _ _ => id) fun hnot _ _ => hnot).bind fun r' rep _ hr' hrep => .pure hr' (.rep hrep)
  | layoutOf type =>
    by_cases hobject : ∃ props, types.resolved? type = some (.object props)
    · obtain ⟨props, hprops⟩ := hobject
      have hlayout := leads_layoutOf h hindex hprops
      exact (hlayout.imp (fun _ _ => id) fun hnot _ _ => hnot).bind fun r' d _ hr' hd =>
        .pure hr' (.layout hprops hd.1 hd.2)
    · have hnone : ∀ props, types.resolved? type ≠ some (.object props) :=
        fun props hprops => hobject ⟨props, hprops⟩
      have hrun : ((Call.layoutOf type).act types).run.run r =
        (.error (.notStructural type (types.render type)), r) := by
        have hlayout := run_layoutOf_of_not_object h hnone
        show (layoutOf types type >>= _).run.run r = _
        rw [run_bind_error _ (by rw [hlayout]), hlayout]
      refine ⟨hrun ▸ .refl r, hrun ▸ h, fun a ha => ?_, fun e _ props hprops => absurd hprops (hnone props)⟩
      rw [hrun] at ha
      cases ha
  | scope key locals =>
    obtain ⟨hsettled, hgrows, hnoted⟩ := h.scope key locals
    refine ⟨hgrows, hsettled, fun a ha => ?_, fun e he => ?_⟩
    · cases ha
      exact .scope (extends_scope r key locals).2 hnoted
    · cases he

/-- A call that asks for the same: for the representation of a type, for the layout of an object type by any of
its aliases, or for the layout of a scope, which is made but once. -/
inductive Call.Same (types : Interner) : Call → Call → Prop
  | resolve (type : Nat) : Same types (.resolve type) (.resolve type)
  | layoutOf {type type' : Nat} : types.unalias type = types.unalias type' → Same types (.layoutOf type)
      (.layoutOf type')
  | scope (key : String) (locals locals' : List FieldSpec) : Same types (.scope key locals) (.scope key locals')

theorem Noted.same {c c' : Call} {a : Answer} (h : Noted types r c a) (hsame : c.Same types c') :
    Noted types r c' a := by
  cases hsame with
  | resolve type => exact h
  | layoutOf heq =>
    cases h with
    | layout hprops hd hnoted =>
      unfold Interner.resolved? at hprops
      rw [heq] at hprops hnoted
      exact .layout hprops hd hnoted
  | scope key locals locals' =>
    cases h with
    | scope hd hnoted => exact .scope hd hnoted

/-- The layout that is noted for an object type is given out. -/
theorem run_layoutFrom_of_noted (h : Settled types r) (hd : d ∈ r.all)
    (hnoted : r.byType.lookup (types.unalias type) = some d.tag) (depth : Nat) :
    (layoutFrom types (depth + 1) type).run.run r = (.ok d, r) := by
  unfold layoutFrom
  rw [run_get_bind]
  dsimp only
  rw [h.bind_descriptor? hd hnoted]
  rfl

/-- What is noted is answered, and nothing else happens. -/
theorem Noted.run {c : Call} {a : Answer} (h : Noted types r c a) (hr : Settled types r) :
    (c.act types).run.run r = (.ok a, r) := by
  cases h with
  | @rep type rep hrep =>
    show (resolve types type >>= _).run.run r = _
    have hrun : (resolve types type).run.run r = (.ok rep, r) := by
      unfold resolve depthFor
      cases hrep with
      | flat hflat =>
        rw [resolveFrom_flat _ hflat]
        rfl
      | object hprops hd hnoted =>
        rw [resolveFrom_object _ hprops]
        have hlayout := run_layoutFrom_of_noted hr hd hnoted (2 * types.types.size + 2)
        rw [run_bind_ok _ (by rw [hlayout]), hlayout]
        rfl
    rw [run_bind_ok _ (by rw [hrun]), hrun]
    rfl
  | @layout type props d hprops hd hnoted =>
    show (layoutOf types type >>= _).run.run r = _
    have hrun : (layoutOf types type).run.run r = (.ok d, r) := run_layoutFrom_of_noted hr hd hnoted _
    rw [run_bind_ok _ (by rw [hrun]), hrun]
    rfl
  | @scope key locals d hd hnoted =>
    have hfound : (r.scopes.lookup key).bind r.descriptor? = some d := by
      rw [hnoted, Option.bind_some, hr.numbered.descriptor? hd]
    have hscope : r.scope key locals = (r, d) := by
      unfold Registry.scope
      rw [hfound]
    show (Except.ok (Answer.layout (r.scope key locals).2), (r.scope key locals).1) = _
    rw [hscope]

/-! ### Any number of calls -/

/-- A registry between calls. -/
structure Resting (types : Interner) (r : Registry) : Prop where
  settled : Settled types r
  stack : r.stack = []
  index : r.index = []

theorem Resting.next (h : Resting types r) (c : Call) : Resting types (c.next types r) ∧ Grows r
    (c.next types r) := by
  have hcall := leads_call h.settled h.index c
  exact ⟨⟨hcall.settled, hcall.grows.stack.trans h.stack, hcall.grows.index.trans h.index⟩, hcall.grows⟩

/-- The induction is on the calls. -/
theorem Resting.calls (h : Resting types r) (calls : List Call) :
    Resting types (calls.foldl (fun r c => c.next types r) r) ∧ Grows r
      (calls.foldl (fun r c => c.next types r) r) := by
  induction calls generalizing r with
  | nil => exact ⟨h, .refl r⟩
  | cons c calls ih =>
    obtain ⟨hnext, hgrows⟩ := h.next c
    obtain ⟨hlast, hgrows'⟩ := ih hnext
    exact ⟨hlast, hgrows.trans hgrows'⟩

theorem resting_after (types : Interner) (target : Target) (calls : List Call) : Resting types
    (after types target calls) := by
  have hstart : Resting types (ofTarget target) := ⟨.ofTarget types target, rfl, rfl⟩
  exact (hstart.calls calls).1

theorem grows_after (types : Interner) (target : Target) (calls more : List Call) :
    Grows (after types target calls) (after types target (calls ++ more)) := by
  rw [after_append]
  exact ((resting_after types target calls).calls more).2

end TypedScript.Layout.Registry
