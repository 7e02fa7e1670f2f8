import TypedScript.Proofs.Compile.Sound
import TypedScript.Proofs.Lower.Traced
import TypedScript.Proofs.Machine.Tallied
import TypedScript.Proofs.Machine.WellFormed
import TypedScript.Proofs.Runtime.Release

/-!
# Releasing an object

The helper that compiled programs call to give up an object, on any heap whose counts are right: it comes back
without a failure, it has given back what can no longer be reached, and the counts are right again.

* `release_collects`: what the helper does on every such heap.
-/

namespace TypedScript.Compile

open TypedScript.Ir TypedScript.Layout TypedScript.Lower TypedScript.Machine

/-- Layouts without counted fields need not be looked for. -/
theorem dropPlan_countedLayouts {reg : Registry} (h : reg.IsNumbered) : dropPlan (countedLayouts reg) =
    dropPlan reg.all := by
  funext t
  have hall : ∀ {d d'}, d ∈ reg.all → d' ∈ reg.all → d.tag = t → d'.tag = t → d = d' := fun hd hd' ht ht' =>
    h.eq_of_tag hd hd' (ht.trans ht'.symm)
  unfold dropPlan
  cases hd : reg.all.find? (·.tag = t) with
  | none =>
    have hnone : (countedLayouts reg).find? (·.tag = t) = none := by
      rw [List.find?_eq_none] at hd ⊢
      exact fun d hmem => hd d (List.mem_filter.1 hmem).1
    rw [hnone]
  | some d =>
    have hmem := List.mem_of_find?_eq_some hd
    have htag : d.tag = t := by simpa using List.find?_some hd
    cases hd' : (countedLayouts reg).find? (·.tag = t) with
    | none =>
      have hplain : d.countedFields = [] := by
        by_contra hne
        have hcounted : d ∈ countedLayouts reg := List.mem_filter.2 ⟨hmem, by simpa using hne⟩
        exact List.find?_eq_none.1 hd' d hcounted (by simpa using htag)
      simp [dropSlots, hplain]
    | some d' =>
      have hmem' := (List.mem_filter.1 (List.mem_of_find?_eq_some hd')).1
      have htag' : d'.tag = t := by simpa using List.find?_some hd'
      rw [hall hmem hmem' htag htag']

/-! ### Units -/

section

variable {o : Options} {name : String} {content : List UInt8} {u : Unit} {m : Module} {st : Lower.State}

/-- A helper of a compiled unit can be called. -/
theorem serves_of_built {inp : Input} {target : Target} {c : Config} {f : Function} (ho : inp.options.IsRegular)
    (herror : (lower inp target).error = none) (hbuilt : Built (lower inp target).state.commands c.module)
    (hname : name ∈ helperNames) (hf : c.module.find? name = some f) (hframe : HelperFrame f)
    (hentry : ∃ l : Machine.Line, (f.code 0)[1]? = some l ∧ l.instr.isTerminator = true) : Serves c name f := by
  have hfinished := (finished_lower ho herror).1
  have hends := endsOnce_of_built hbuilt f (Array.mem_of_find?_eq_some hf)
  have hsig : f.sig = helperSig := by
    have hlookup := find?_map_sig c.module name
    rw [hf, (hfinished.declared _ hbuilt).1.sigs, hfinished.helpers name hname] at hlookup
    exact Option.some.inj hlookup
  obtain ⟨l, hl, hterm⟩ := hentry
  exact ⟨hframe, hf, by rw [hsig]; rfl, hends, hends.enters hl hterm⟩

/-- A compiled unit has the helpers that take owners away. -/
theorem canRelease_of_compile (ho : o.hooks.IsRegular) (hu : compileSource o name content = .ok u)
    (hcode : u.code = some (.machine m)) (hst : u.lowered = some st) (limit : Nat) (isTraced : Bool) :
    ∃ f g, CanRelease { module := m, hosts := hostsFor u m, limit, isTraced } u.hooks.release
      (countedLayouts st.registry) f g := by
  have hprogram := (program_of_compile ho hu hcode hst limit isTraced).toRuntime
  have hcompile : compile o (Source.FileSet.addVirtual {} name content).1 (sourceFile name content) = .ok u := hu
  obtain ⟨hhooks, -, target, herror, rfl, hbuilt⟩ := lowered_of_compile hcompile hcode hst
  have hinp : (checkedInput (sourceFile name content) o.diagnosticLimit o.hooks).options = o.hooks := rfl
  generalize checkedInput (sourceFile name content) o.diagnosticLimit o.hooks = inp at herror hbuilt hinp hprogram ⊢
  rw [← hinp] at ho hhooks
  have hdeclared := (grounded_of_lower herror).2
  obtain ⟨f, hf⟩ := exists_of_declareFunc hbuilt
    (hdeclared releaseName helperSig (.inr ⟨List.mem_cons_of_mem _ (by simp [helperNames]), rfl⟩))
  obtain ⟨g, hg⟩ := exists_of_declareFunc hbuilt
    (hdeclared fnReleaseName helperSig (.inr ⟨List.mem_cons_of_mem _ (by simp [helperNames]), rfl⟩))
  obtain ⟨k, hk⟩ := exists_of_declareFunc hbuilt
    (hdeclared inp.options.release helperSig (.inr ⟨List.mem_cons_self, rfl⟩))
  rw [← hhooks] at hk
  have hrelease := hprogram.release f hf
  have hfnRelease := hprogram.fnRelease g hg
  exact ⟨f, g, {
    release := hrelease
    serves := serves_of_built ho herror hbuilt (by simp [helperNames]) hf hrelease.toHelperFrame
      ⟨_, by rw [hrelease.entry]; rfl, rfl⟩
    fnRelease := hfnRelease
    fnServes := serves_of_built ho herror hbuilt (by simp [helperNames]) hg hfnRelease.toHelperFrame
      ⟨_, by rw [hfnRelease.entry]; rfl, rfl⟩
    host := ⟨k, hk, hprogram.hook k hk⟩ }⟩

/-- A compiled unit tells its layouts apart by their tags. -/
theorem dropPlan_of_compile (hu : compileSource o name content = .ok u) (hcode : u.code = some (.machine m))
    (hst : u.lowered = some st) : dropPlan (countedLayouts st.registry) = dropPlan st.registry.all := by
  obtain ⟨-, -, target, herror, rfl, -⟩ := lowered_of_compile hu hcode hst
  exact dropPlan_countedLayouts (grounded_of_lower herror).1.made.isNumbered

/-- The helper carries out a drop, without a failure and within so many steps. -/
theorem executes_release {c : Config} {hook : String} {ds : List Descriptor} {f g : Function} {v : Value}
    {M M' : Memory} {log : List Deed} (hc : CanRelease c hook ds f g)
    (hcascade : Cascade (dropPlan ds) (.value v) M log M') (env : Value) (dst : Nat) (caller : Frame)
    (more : List Frame) :
    ∃ n, ∀ k calls events, c.limit = 0 ∨ k + n ≤ c.limit → ∃ s events',
      (invoke c f [env, v] dst).run.run ⟨M, caller :: more, k, calls, events⟩ = (.ok none, s) ∧ s.memory = M ∧
        Executes c n s log ⟨M', caller.set (some dst) .invalid :: more, k + n, calls, events'⟩ := by
  have hdone : Delivers c f v M log M' := hc.done hcascade
  obtain ⟨n, hn⟩ := hdone env dst M.cells.size caller more
  refine ⟨n, fun k calls events hlimit => ?_⟩
  obtain ⟨events', hexecutes⟩ := hn k calls events hlimit
  have hlength : [env, v].length = f.sig.params.length := hc.serves.params.symm
  exact ⟨_, events', run_invoke hc.serves.isDefined hc.serves.slots hlength hc.serves.enters, rfl, hexecutes⟩

/-- In a heap whose counts are right and whose objects do not own each other in a circle, the helper takes an
owner from an object without a failure. It gives back the objects that can be reached neither from the owners that
are left nor from objects that had none in the first place, each once and after its fields, and leaves the counts
of the others right. `ext` tells how many owners there are that are not fields, apart from the one that is taken
away; the fields are those that the layouts of the unit count. -/
theorem release_collects (ho : o.hooks.IsRegular) (hu : compileSource o name content = .ok u)
    (hcode : u.code = some (.machine m)) (hst : u.lowered = some st) (limit : Nat) (isTraced : Bool) {M : Memory}
    {ext : Nat → Nat} {id : Nat}
    (hM : Tallied (dropPlan st.registry.all) (fun w => ext w + pointing [.ptr (.object id)] w) M.inUse M)
    (hacyclic : Acyclic (dropPlan st.registry.all) M.inUse M) :
    ∃ f log M', m.find? releaseName = some f ∧ Collects (dropPlan st.registry.all) ext M log M' ∧
      ∀ env dst caller more, ∃ n, ∀ k calls events, limit = 0 ∨ k + n ≤ limit →
        ∃ s events', (invoke { module := m, hosts := hostsFor u m, limit, isTraced } f
          [env, .ptr (.object id)] dst).run.run
            ⟨M, caller :: more, k, calls, events⟩ = (.ok none, s) ∧ s.memory = M ∧
          Executes { module := m, hosts := hostsFor u m, limit, isTraced } n s log
            ⟨M', caller.set (some dst) .invalid :: more, k + n, calls, events'⟩ := by
  obtain ⟨f, g, hc⟩ := canRelease_of_compile ho hu hcode hst limit isTraced
  have hplan : BehindHeader (dropPlan (countedLayouts st.registry)) :=
    (program_of_compile ho hu hcode hst limit isTraced).slots
  rw [← dropPlan_of_compile hu hcode hst] at hM hacyclic ⊢
  obtain ⟨log, M', hcascade, hcollects⟩ := hM.collects hplan hacyclic
  exact ⟨f, log, M', hc.serves.find, hcollects, executes_release hc hcascade⟩

end

/-! ### An object in another -/

/-- What is lowered of a text. -/
def loweredOf (content : List UInt8) : Option (Unit × Module × Lower.State) :=
  match compileSource { backend := .machine } "main.ts" content with
  | .ok u =>
    match u.code, u.lowered with
    | some (.machine m), some st => some (u, m, st)
    | _, _ => none
  | .error _ => none

theorem compileSource_of_loweredOf {content : List UInt8} {u : Unit} {m : Module} {st : Lower.State}
    (h : loweredOf content = some (u, m, st)) :
    compileSource { backend := .machine } "main.ts" content = .ok u ∧ u.code = some (.machine m) ∧
      u.lowered = some st := by
  unfold loweredOf at h
  split at h
  · rename_i u' hu
    split at h
    · rename_i m' st' hcode hst
      cases h
      exact ⟨hu, hcode, hst⟩
    · cases h
  · cases h

/-- An object with so many owners, and one in a field of it that has another owner. -/
def nested (owners : Nat) : Memory where
  objects := #[{ size := 16, slots := #[.int 3, .int owners, .ptr (.object 2)] },
    { size := 12, slots := #[.int 2, .int 2, .bool true] }]

/-- The owners of both objects that are not fields. -/
def nestedOwners (owners : Nat) : Nat → Nat
  | 0 => owners
  | 1 => 1
  | _ => 0

theorem inUse_nested (owners : Nat) : (nested owners).inUse = {0, 1} := by
  ext x
  rw [Memory.mem_inUse, Finset.mem_insert, Finset.mem_singleton]
  constructor
  · rintro ⟨hlt, -⟩
    have : x < 2 := hlt
    omega
  · rintro (rfl | rfl) <;> exact ⟨by simp [nested], rfl⟩

section

variable {plan : Int → List (Bool × Nat)} {owners : Nat} (h₂ : plan 2 = []) (h₃ : plan 3 = [(false, 2)])

include h₂ h₃

theorem refers_nested {x w : Nat} (hx : x ∈ (nested owners).inUse) (h : Refers plan (nested owners) x w) :
    x = 0 ∧ w = 1 := by
  rw [inUse_nested, Finset.mem_insert, Finset.mem_singleton] at hx
  obtain ⟨p, hp, hw⟩ := h
  rcases hx with rfl | rfl
  · have hp' : p ∈ plan 3 := hp
    rw [h₃, List.mem_singleton] at hp'
    subst hp'
    exact ⟨rfl, (Option.some.inj hw).symm⟩
  · have hp' : p ∈ plan 2 := hp
    rw [h₂] at hp'
    cases hp'

theorem acyclic_nested : Acyclic plan (nested owners).inUse (nested owners) := by
  intro x hx hcycle
  obtain ⟨y, hstep, hpath⟩ := Relation.TransGen.head'_iff.1 hcycle
  obtain ⟨rfl, rfl⟩ := refers_nested h₂ h₃ hx hstep
  rcases Relation.ReflTransGen.cases_head hpath with heq | ⟨z, hnext, -⟩
  · cases heq
  · cases (refers_nested h₂ h₃ (by simp [inUse_nested]) hnext).1

theorem tallied_nested (howners : owners < 2 ^ 31) :
    Tallied plan (nestedOwners owners) (nested owners).inUse (nested owners) := by
  have heq : ∀ x, (nested owners).owners plan (nestedOwners owners) (nested owners).inUse x =
      if x = 0 then owners else if x = 1 then 2 else 0 := by
    intro x
    have hheld₀ : (nested owners).held plan 0 = (plan 3).map fun p => ((nested owners).nth 0).slot p.2 := rfl
    have hheld₁ : (nested owners).held plan 1 = (plan 2).map fun p => ((nested owners).nth 1).slot p.2 := rfl
    have hslot : ((nested owners).nth 0).slot 2 = .ptr (.object 2) := rfl
    rw [Memory.owners, inUse_nested, Finset.sum_pair (by decide), hheld₀, hheld₁, h₂, h₃]
    simp only [List.map_cons, List.map_nil, hslot, pointing_nil, pointing_object]
    rcases x with _ | _ | x <;> simp [nestedOwners]
  have hcases : ∀ {x}, x ∈ (nested owners).inUse → x = 0 ∨ x = 1 := by
    intro x hx
    simpa [inUse_nested] using hx
  constructor
  case inUse => exact fun x hx => Memory.mem_inUse.1 hx
  case tagged =>
    intro x hx
    rcases hcases hx with rfl | rfl
    · exact ⟨3, rfl⟩
    · exact ⟨2, rfl⟩
  case fields =>
    intro x hx p hp
    rcases hcases hx with rfl | rfl
    · have hp' : p ∈ plan 3 := hp
      rw [h₃, List.mem_singleton] at hp'
      subst hp'
      exact .object (by simp [inUse_nested]) (by simp)
    · have hp' : p ∈ plan 2 := hp
      rw [h₂] at hp'
      cases hp'
  case count =>
    intro x hx
    rw [heq]
    rcases hcases hx with rfl | rfl <;> rfl
  case bound =>
    intro x hx
    rw [heq]
    rcases hcases hx with rfl | rfl
    · exact howners
    · simp
  case owned =>
    intro x hx
    rcases x with _ | _ | x
    · simp [inUse_nested]
    · simp [inUse_nested]
    · cases hx

end

/-- A unit whose layouts are those of `nested`. -/
theorem exists_nested : ∃ u m st,
    compileSource { backend := .machine } "main.ts" "const o = {a: {b: true}};\n".toUTF8.toList = .ok u ∧
      u.code = some (.machine m) ∧ u.lowered = some st ∧
      dropPlan st.registry.all 2 = [] ∧ dropPlan st.registry.all 3 = [(false, 2)] := by
  have h : (loweredOf "const o = {a: {b: true}};\n".toUTF8.toList).map
      (fun p => (dropPlan p.2.2.registry.all 2, dropPlan p.2.2.registry.all 3)) = some ([], [(false, 2)]) := by
    set_option maxRecDepth 100000 in decide +kernel
  obtain ⟨⟨u, m, st⟩, hlowered, hplan⟩ := Option.map_eq_some_iff.1 h
  obtain ⟨hu, hcode, hst⟩ := compileSource_of_loweredOf hlowered
  exact ⟨u, m, st, hu, hcode, hst, (Prod.mk.inj hplan).1, (Prod.mk.inj hplan).2⟩

/-- The object in the field has another owner, and is left. -/
theorem release_collects_of_nested : ∃ u m st f log M',
    compileSource { backend := .machine } "main.ts" "const o = {a: {b: true}};\n".toUTF8.toList = .ok u ∧
    u.code = some (.machine m) ∧ u.lowered = some st ∧ m.find? releaseName = some f ∧
    Collects (dropPlan st.registry.all) (nestedOwners 0) (nested 1) log M' ∧ 0 ∈ backs log ∧ 1 ∉ backs log := by
  obtain ⟨u, m, st, hu, hcode, hst, h₂, h₃⟩ := exists_nested
  have htallied := tallied_nested h₂ h₃ (show 1 < 2 ^ 31 by decide)
  have hext : nestedOwners 1 = fun w => nestedOwners 0 w + pointing [.ptr (.object 1)] w := by
    funext w
    rw [pointing_object]
    match w with
    | 0 | 1 | _ + 2 => rfl
  rw [hext] at htallied
  obtain ⟨f, log, M', hfind, hcollects, -⟩ :=
    release_collects (by decide) hu hcode hst 0 false htallied (acyclic_nested h₂ h₃)
  refine ⟨u, m, st, f, log, M', hu, hcode, hst, hfind, hcollects, ?_, fun hmem => ?_⟩
  · refine (hcollects.mem_backs_of_owned ?_ 0).2 ⟨by simp [inUse_nested], ?_⟩
    · intro x hx
      rw [inUse_nested, Finset.mem_insert, Finset.mem_singleton] at hx
      rcases hx with rfl | rfl <;> decide
    · rintro ⟨r, hr, hpath⟩
      obtain rfl : r = 1 := by
        match r with
        | 0 => cases hr
        | 1 => rfl
        | _ + 2 => cases hr
      rcases Relation.ReflTransGen.cases_head hpath with heq | ⟨z, hnext, -⟩
      · cases heq
      · cases (refers_nested h₂ h₃ (by simp [inUse_nested]) hnext).1
  · exact ((hcollects.mem_backs 1).1 hmem).2 ⟨1, by simp [inUse_nested], .inl (by decide), .refl⟩

/-- An object without owners keeps what its fields point to: when the only other owner of the object in the field is
taken away, that object is not given back, although no owner outside is left. -/
theorem unowned_keeps_field : let ext : Nat → Nat := fun _ => 0
    ∃ u m st f log M',
    compileSource { backend := .machine } "main.ts" "const o = {a: {b: true}};\n".toUTF8.toList = .ok u ∧
    u.code = some (.machine m) ∧ u.lowered = some st ∧ m.find? releaseName = some f ∧
    Tallied (dropPlan st.registry.all) (fun w => ext w + pointing [.ptr (.object 2)] w)
      (nested 0).inUse (nested 0) ∧
    Acyclic (dropPlan st.registry.all) (nested 0).inUse (nested 0) ∧
    (∀ env dst caller more, ∃ n, ∀ k calls events, ∃ s events',
      (invoke { module := m, hosts := hostsFor u m, limit := 0, isTraced := false } f
      [env, .ptr (.object 2)] dst).run.run
          ⟨nested 0, caller :: more, k, calls, events⟩ = (.ok none, s) ∧
        Executes { module := m, hosts := hostsFor u m, limit := 0, isTraced := false } n s log
          ⟨M', caller.set (some dst) .invalid :: more, k + n, calls, events'⟩) ∧
    ¬ ∀ x, x ∈ backs log ↔ x ∈ (nested 0).inUse ∧
      ¬ ∃ r, 0 < ext r ∧ Relation.ReflTransGen (Refers (dropPlan st.registry.all) (nested 0)) r x := by
  intro ext
  obtain ⟨u, m, st, hu, hcode, hst, h₂, h₃⟩ := exists_nested
  have ho : ({ backend := .machine } : Options).hooks.IsRegular := by decide
  obtain ⟨f, g, hc⟩ := canRelease_of_compile ho hu hcode hst 0 false
  have hplan : BehindHeader (dropPlan (countedLayouts st.registry)) :=
    (program_of_compile ho hu hcode hst 0 false).slots
  have htallied := tallied_nested h₂ h₃ (show 0 < 2 ^ 31 by decide)
  have hacyclic : Acyclic (dropPlan st.registry.all) (nested 0).inUse (nested 0) := acyclic_nested h₂ h₃
  have hext : nestedOwners 0 = fun w => ext w + pointing [.ptr (.object 2)] w := by
    funext w
    rw [pointing_object]
    match w with
    | 0 | 1 | _ + 2 => rfl
  rw [hext] at htallied
  have hdrops := dropPlan_of_compile hu hcode hst
  rw [← hdrops] at htallied hacyclic
  obtain ⟨log, M', hcascade, hcollects⟩ := htallied.collects hplan hacyclic
  rw [hdrops] at htallied hacyclic
  refine ⟨u, m, st, f, log, M', hu, hcode, hst, hc.serves.find, htallied, hacyclic, fun env dst caller more => ?_,
    fun hall => ?_⟩
  · obtain ⟨n, hn⟩ := executes_release hc hcascade env dst caller more
    refine ⟨n, fun k calls events => ?_⟩
    obtain ⟨s, events', hinvoke, -, hexecutes⟩ := hn k calls events (.inl rfl)
    exact ⟨s, events', hinvoke, hexecutes⟩
  · -- the object in the field is still reached from the one that had no owner in the first place
    have hback : 1 ∈ backs log := (hall 1).2 ⟨by simp [inUse_nested], by simp [ext]⟩
    have hfield : Refers (dropPlan (countedLayouts st.registry)) (nested 0) 0 1 := by
      refine ⟨(false, 2), ?_, rfl⟩
      rw [hdrops]
      exact h₃ ▸ List.mem_singleton_self _
    exact ((hcollects.mem_backs 1).1 hback).2 ⟨0, by simp [inUse_nested], .inr (by decide), .single hfield⟩

end TypedScript.Compile
