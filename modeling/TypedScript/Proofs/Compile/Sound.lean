import Mathlib.Data.List.Nodup
import TypedScript.Proofs.Compile.Ends
import TypedScript.Proofs.Lower.Helpers
import TypedScript.Proofs.Runtime.Sound

/-!
# Giving back objects

Compiled programs give back objects only when no one owns them, and never twice: the counts are kept by the
helpers alone, and these were proved to be right. What can still go wrong is that an object is used after its last
owner is gone, or that objects own each other for ever.

* `failure_of_run`: of the three failures that have to do with objects that were given back, only the use of one
  can occur.
* `balanced_of_run`: a run that ends regularly has given back exactly the objects without owners.
-/

namespace TypedScript.Compile

open TypedScript.Ir TypedScript.Layout TypedScript.Lower TypedScript.Machine

/-! ### Functions -/

/-- The function that a name finds is the one that is defined under it. -/
theorem isDefined_of_find? {symbols : List (String × Sig)} {m : Module} {name : String} {f : Function}
    (hm : Listed symbols m) (hd : Defines m name) (hf : m.find? name = some f) : f.isDefined = true := by
  obtain ⟨g, hg, hname, hdef⟩ := hd
  have hnodup : (m.functions.toList.map Function.name).Nodup := by
    have h := hm.nodup
    rwa [Module.sigs, List.map_map] at h
  have heq : f = g := by
    refine List.inj_on_of_nodup_map hnodup (Array.mem_def.1 (Array.mem_of_find?_eq_some hf)) (Array.mem_def.1 hg) ?_
    rw [hname]
    simpa using Array.find?_some hf
  rw [heq]
  exact hdef

/-- Fields that are released lie behind the header. -/
theorem slot_ne_of_mem_dropPlan {reg : Registry} (h : reg.IsPlaced) (t : Int) :
    ∀ p ∈ dropPlan (countedLayouts reg) t, p.2 ≠ countSlot := by
  intro p hp
  unfold dropPlan at hp
  cases hd : (countedLayouts reg).find? (·.tag = t) with
  | none => simp [hd] at hp
  | some d =>
    simp only [hd, Option.map_some, Option.getD_some] at hp
    obtain ⟨f, hf, rfl⟩ := List.mem_map.1 hp
    have hmem := (List.mem_filter.1 (List.mem_of_find?_eq_some hd)).1
    exact (h d hmem).ne_count f (List.mem_filter.1 hf).1

/-! ### Hosts -/

section

variable {u : Unit} {m : Module}

/-- The functions of the allocator do not print. -/
theorem lookup_hostsFor_of_hook {name : String} (hname : name ∈ [u.hooks.allocate, u.hooks.release]) :
    (hostsFor u m).lookup name = (allocatorHosts u.hooks.allocate u.hooks.release).lookup name := by
  unfold hostsFor
  dsimp only
  rw [List.lookup_append, List.lookup_eq_none_iff.2 ?_, Option.none_or]
  intro p hp
  obtain ⟨f, hf, rfl⟩ := List.mem_map.1 hp
  have hcond := (List.mem_filter.1 hf).2
  simp only [bne_iff_ne, ne_eq]
  rintro rfl
  rw [List.contains_iff_mem.2 hname] at hcond
  simp at hcond

theorem lookup_release (ho : u.hooks.IsRegular) : (hostsFor u m).lookup u.hooks.release = some .release := by
  have hne := (ho.plain u.hooks.release (by simp [reservedNames])).1
  rw [lookup_hostsFor_of_hook (by simp), allocatorHosts, if_neg hne]
  simp

theorem lookup_allocate (ho : u.hooks.IsRegular) : (hostsFor u m).lookup u.hooks.allocate = some .allocate := by
  have hrelease := (ho.plain u.hooks.release (by simp [reservedNames])).1
  have hallocate := (ho.plain u.hooks.allocate (by simp [reservedNames])).1
  have hne : u.hooks.allocate ≠ u.hooks.release := by
    have h := ho.nodup
    simp only [reservedNames, List.cons_append, List.nodup_cons] at h
    exact fun heq => h.2.1 (by simp [heq])
  rw [lookup_hostsFor_of_hook (by simp), allocatorHosts, if_neg hrelease, if_neg hallocate]
  have hbeq : (u.hooks.allocate == u.hooks.release) = false := by simpa using hne
  simp [List.lookup_cons, hbeq]

/-- All other functions without a body print. -/
theorem lookup_printer {name : String} {host : Host} (ho : u.hooks.IsRegular) (hname : name ∉ reservedNames u.hooks)
    (h : (hostsFor u m).lookup name = some host) : host = .print := by
  have hrelease := (ho.plain u.hooks.release (by simp [reservedNames])).1
  have hallocate := (ho.plain u.hooks.allocate (by simp [reservedNames])).1
  obtain ⟨l₁, l₂, hl, -⟩ := List.lookup_eq_some_iff.1 h
  have hmem : (name, host) ∈ hostsFor u m := by rw [hl]; simp
  rcases List.mem_append.1 hmem with hp | hp
  · obtain ⟨f, -, hf⟩ := List.mem_map.1 hp
    cases hf
    rfl
  · rw [allocatorHosts, if_neg hrelease, if_neg hallocate] at hp
    simp only [List.mem_cons, Prod.mk.injEq, List.not_mem_nil, or_false] at hp
    rcases hp with ⟨rfl, -⟩ | ⟨rfl, -⟩
    · exact absurd (by simp [reservedNames]) hname
    · exact absurd (by simp [reservedNames]) hname

end

/-! ### Runs -/

/-- The functions of a compiled unit are as the runtime needs them. -/
theorem program_of_compile {o : Options} {files : Source.FileSet} {file : Source.File} {u : Unit} {m : Module}
    {st : Lower.State} (ho : o.hooks.IsRegular) (h : compile o files file = .ok u)
    (hcode : u.code = some (.machine m)) (hst : u.lowered = some st) (limit : Nat) (isTraced : Bool) :
    Program { module := m, hosts := hostsFor u m, limit, isTraced } u.hooks (countedLayouts st.registry) := by
  obtain ⟨hhooks, -, target, herror, rfl, hbuilt⟩ := lowered_of_compile h hcode hst
  have hinp : (checkedInput file o.diagnosticLimit o.hooks).options = o.hooks := rfl
  generalize checkedInput file o.diagnosticLimit o.hooks = inp at herror hbuilt hinp ⊢
  rw [← hhooks] at ho hinp
  obtain ⟨hfinished, hplaced⟩ := finished_lower (hinp ▸ ho) herror
  obtain ⟨hdeclared, hdefines⟩ := hfinished.declared m hbuilt
  rw [hinp] at hdeclared hdefines
  have hmem : ∀ {name f}, m.find? name = some f → f ∈ m.functions ∧ f.name = name := fun hf =>
    ⟨Array.mem_of_find?_eq_some hf, by simpa using Array.find?_some hf⟩
  have hdefined : ∀ {name f}, name ∈ [releaseName, fnReleaseName, fnRetainName, retainName, u.hooks.entry] →
      m.find? name = some f → f.isDefined = true ∧
        IsSettled u.hooks (countedLayouts (lower inp target).state.registry) f := by
    intro name f hname hf
    have hd := isDefined_of_find? hdeclared.toListed (hdefines name hname) hf
    exact ⟨hd, hdeclared.known f (hmem hf).1 hd⟩
  have hdisjoint := (List.nodup_append.1 ho.nodup).2.2
  -- the functions of the host have no body
  have hhost : ∀ {name f}, name ∈ [u.hooks.allocate, u.hooks.release] → m.find? name = some f →
    f.isDefined = false := by
    intro name f hname hf
    obtain ⟨hfm, rfl⟩ := hmem hf
    cases hd : f.isDefined with
    | false => rfl
    | true =>
      have hhelper : f.name ∉ helperNames :=
        fun hmem => hdisjoint f.name (List.mem_cons_of_mem _ hname) f.name hmem rfl
      have huser := ((hdeclared.known f hfm hd).isUserFunction hhelper).1
      exact absurd (List.mem_append_left helperNames hname) huser
  exact {
    retain := fun f hf => (hdefined (by simp) hf).2.retainCode (hmem hf).2
    fnRetain := fun f hf => (hdefined (by simp) hf).2.fnRetainCode (hmem hf).2
    fnRelease := fun f hf => (hdefined (by simp) hf).2.fnReleaseCode (hmem hf).2
    release := fun f hf => (hdefined (by simp) hf).2.releaseCode (hmem hf).2
    hook := fun f hf => ⟨hhost (by simp) hf, (hmem hf).2 ▸ lookup_release ho⟩
    allocator := fun f hf => ⟨hhost (by simp) hf, (hmem hf).2 ▸ lookup_allocate ho⟩
    slots := slot_ne_of_mem_dropPlan hplaced
    tame := fun name f hf hname hd => by
      obtain ⟨hfm, rfl⟩ := hmem hf
      exact ((hdeclared.known f hfm hd).isUserFunction fun h => hname (List.mem_append_right _ h)).2
    printer := fun name f hf hname hd host hlookup => by
      obtain ⟨-, rfl⟩ := hmem hf
      exact lookup_printer ho hname hlookup
    entry := fun f hf => by
      obtain ⟨hd, hsettled⟩ := hdefined (by simp) hf
      have hentry : f.name ∉ helperNames := fun h => hdisjoint f.name (by simp [(hmem hf).2]) f.name h rfl
      exact ⟨hd, (hsettled.isUserFunction hentry).2⟩ }

/-- The ways in which a run of a compiled unit can end. -/
inductive Ends (M : Memory) : Option RunError → Prop
  /-- Everything was given back. -/
  | balanced (hM : M.Settled) (hlive : M.live = []) : Ends M none
  /-- The entry returned, but some objects still have owners. -/
  | leaked (path : String) (f : Failure) (hM : M.Settled) (hlive : M.live ≠ []) (hf : f.code = .leak) :
      Ends M (some (.failed path f))
  | failed (path : String) (f : Failure) (hf : f.Mild) : Ends M (some (.failed path f))
  | noEntry (path name : String) : Ends M (some (.noEntry path name))

theorem ends_of_run {o : Options} {name : String} {content : List UInt8} {u : Unit} (ho : o.hooks.IsRegular)
    (hu : compileSource o name content = .ok u) {ro : RunOptions} {s : Machine.State} {err : Option RunError}
    (hrun : run ro u = (some s, err)) (hs : s.steps < stepBound) : Ends s.memory err := by
  unfold run at hrun
  split at hrun
  · rename_i m st hcode hst
    split at hrun
    · cases hrun
    · have hsound := (program_of_compile ho hu hcode hst ro.maxSteps ro.isTraced).run_sound
      dsimp only at hrun
      rcases hout : Machine.run
        { module := m, hosts := hostsFor u m, limit := ro.maxSteps, isTraced := ro.isTraced }
        u.hooks.entry [] with ⟨out, s'⟩
      rw [hout] at hrun hsound
      cases out with
      | failure f =>
        cases hrun
        exact .failed _ f (hsound hs)
      | noFunction n =>
        cases hrun
        exact .noEntry _ n
      | value v =>
        dsimp only at hrun
        unfold Memory.checkBalanced at hrun
        dsimp only at hrun
        by_cases hlive : s'.memory.live = []
        · simp only [hlive, List.isEmpty_nil, if_true] at hrun
          cases hrun
          exact .balanced (hsound hs) hlive
        · simp only [List.isEmpty_iff, hlive, if_false] at hrun
          cases hrun
          exact .leaked _ _ (hsound hs) hlive rfl
  · cases hrun

/-- Of the failures that have to do with objects that were given back, a run of less than `2 ^ 31` instructions
ends at most in the use of one. No object is given back twice, and none while it has owners. -/
theorem failure_of_run {o : Options} {name : String} {content : List UInt8} {u : Unit} (ho : o.hooks.IsRegular)
    (hu : compileSource o name content = .ok u) {ro : RunOptions} {s : Machine.State} {path : String} {f : Failure}
    (hrun : run ro u = (some s, some (.failed path f))) (hs : s.steps < stepBound)
    (hf : f.code ∈ [FailureCode.useAfterRelease, .doubleRelease, .releasedLive]) : f.code = .useAfterRelease := by
  have hcode : f.code.isMild = true ∨ f.code = .leak := by
    cases ends_of_run ho hu hrun hs with
    | leaked _ _ _ _ hf => exact .inr hf
    | failed _ _ hf => exact .inl hf
  simp only [List.mem_cons, List.not_mem_nil, or_false] at hf
  rcases hf with hf | hf | hf
  · exact hf
  · rcases hcode with hmild | hleak
    · rw [hf] at hmild
      cases hmild
    · rw [hf] at hleak
      cases hleak
  · rcases hcode with hmild | hleak
    · rw [hf] at hmild
      cases hmild
    · rw [hf] at hleak
      cases hleak

/-- How the run of a text ends, if it fails: the failure, and the state at that time. -/
def failureOf (content : List UInt8) : Option (Failure × Machine.State) :=
  match compileSource { backend := .machine } "main.ts" content with
  | .ok u =>
    match run {} u with
    | (some s, some (.failed _ f)) => some (f, s)
    | _ => none
  | .error _ => none

theorem run_of_failureOf {content : List UInt8} {f : Failure} {s : Machine.State}
    (h : failureOf content = some (f, s)) :
    ∃ u path, compileSource { backend := .machine } "main.ts" content = .ok u ∧
      run {} u = (some s, some (.failed path f)) := by
  unfold failureOf at h
  split at h
  · rename_i u hu
    split at h
    · rename_i s' path f' hrun
      cases h
      exact ⟨u, path, hu, hrun⟩
    · cases h
  · cases h

set_option maxRecDepth 100000 in
/-- An object literal does not own the values of its properties while the later ones are evaluated. -/
theorem failure_of_run_of_overwritten : ∃ u s path f,
    compileSource { backend := .machine } "main.ts"
      "let x: {b: boolean} = {b: true};\nconst o = {a: x, c: (x = {b: false}).b};\n".toUTF8.toList = .ok u ∧
    run {} u = (some s, some (.failed path f)) ∧ f.code = .useAfterRelease := by
  have h : (failureOf
      "let x: {b: boolean} = {b: true};\nconst o = {a: x, c: (x = {b: false}).b};\n".toUTF8.toList).map
      (fun p => (p.1.code, decide (p.2.steps < stepBound))) = some (.useAfterRelease, true) := by decide +kernel
  obtain ⟨⟨f, s⟩, hout, hp⟩ := Option.map_eq_some_iff.1 h
  obtain ⟨u, path, hu, hrun⟩ := run_of_failureOf hout
  simp only [Prod.mk.injEq, decide_eq_true_eq] at hp
  exact ⟨u, s, path, f, hu, hrun, failure_of_run (by decide) hu hrun hp.2 (by simp [hp.1])⟩

/-- Once the entry has returned, exactly the objects without owners have been given back, each of them once. So
the run is good exactly if no object has an owner any more. -/
theorem balanced_of_run {o : Options} {name : String} {content : List UInt8} {u : Unit} (ho : o.hooks.IsRegular)
    (hu : compileSource o name content = .ok u) {ro : RunOptions} {s : Machine.State} {err : Option RunError}
    (hrun : run ro u = (some s, err)) (hs : s.steps < stepBound)
    (herr : ∀ e, err = some e → ∃ path f, e = .failed path f ∧ f.code = .leak) :
    (err = none ↔ ∀ obj ∈ s.memory.objects, obj.count ≤ 0) ∧
      (∀ obj ∈ s.memory.objects, obj.isReleased = true ↔ obj.count ≤ 0) ∧
      s.memory.releases = s.memory.objects.countP (·.isReleased) := by
  have hgood : ∀ M : Memory, M.Settled → (M.live = [] ↔ ∀ obj ∈ M.objects, obj.count ≤ 0) := by
    intro M hM
    rw [Memory.live_eq_nil_iff]
    exact ⟨fun h obj hobj => (hM.released_iff obj hobj).1 (h obj hobj),
      fun h obj hobj => (hM.released_iff obj hobj).2 (h obj hobj)⟩
  cases ends_of_run ho hu hrun hs with
  | balanced hM hlive =>
    exact ⟨⟨fun _ => (hgood _ hM).1 hlive, fun _ => rfl⟩, hM.released_iff, hM.releases_eq⟩
  | leaked path f hM hlive hf =>
    refine ⟨⟨fun h => (nomatch h), fun h => ?_⟩, hM.released_iff, hM.releases_eq⟩
    exact absurd ((hgood _ hM).2 h) hlive
  | failed path f hf =>
    obtain ⟨_, _, heq, hleak⟩ := herr _ rfl
    cases heq
    unfold Failure.Mild at hf
    rw [hleak] at hf
    cases hf
  | noEntry path name =>
    obtain ⟨_, _, heq, -⟩ := herr _ rfl
    cases heq

set_option maxRecDepth 100000 in
/-- A closure that is kept in the scope it was made in is never given back. -/
theorem balanced_of_run_of_cycle : ∃ u s path f,
    compileSource { backend := .machine } "main.ts"
      "type F = () => void;\nlet f: F = () => { f; };\n".toUTF8.toList = .ok u ∧
    run {} u = (some s, some (.failed path f)) ∧ f.code = .leak ∧ ∃ obj ∈ s.memory.objects, 0 < obj.count := by
  have h : (failureOf "type F = () => void;\nlet f: F = () => { f; };\n".toUTF8.toList).map
      (fun p => (p.1.code, decide (p.2.steps < stepBound))) = some (.leak, true) := by decide +kernel
  obtain ⟨⟨f, s⟩, hout, hp⟩ := Option.map_eq_some_iff.1 h
  obtain ⟨u, path, hu, hrun⟩ := run_of_failureOf hout
  simp only [Prod.mk.injEq, decide_eq_true_eq] at hp
  refine ⟨u, s, path, f, hu, hrun, hp.1, ?_⟩
  have hbalanced := (balanced_of_run (by decide) hu hrun hp.2 fun e he =>
    ⟨path, f, (Option.some.inj he).symm, hp.1⟩).1
  by_contra hnone
  refine absurd (hbalanced.2 fun obj hobj => ?_) nofun
  by_contra hpos
  exact hnone ⟨obj, hobj, by omega⟩

end TypedScript.Compile
