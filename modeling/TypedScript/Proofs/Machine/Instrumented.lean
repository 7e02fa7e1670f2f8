import TypedScript.Proofs.Machine.Heap
import TypedScript.Proofs.Machine.Observed

/-!
# The instrumented heap

What the heap tells about a run is right for all code, if the host provides the allocator and printers only:
objects have the numbers in the order in which they were allocated, an object is given back at most once and only
without owners, and nothing reads or changes it afterwards.

* `Memory.Accounted`: what holds of the memory after given calls of the host.
* `Accounted.step`: every instruction keeps it.
* `run_instrumented`: what the heap tells in all states of a run.
-/

namespace TypedScript.Machine

open TypedScript.Ir TypedScript.Layout

/-! ### Numbers of objects -/

/-- The number of the object that a value points to or into. -/
def Value.object? : Value → Option Nat
  | .ptr (.object id) | .ptr (.field id _) => some id
  | _ => none

/-- The value points at most to the first `n` objects. -/
def Value.Within (n : Nat) (v : Value) : Prop := ∀ id, v.object? = some id → 1 ≤ id ∧ id ≤ n

section

variable {n n' : Nat} {v : Value}

theorem within_of_none (h : v.object? = none) : v.Within n := fun id hid => by
  rw [h] at hid
  cases hid

theorem Value.Within.mono (h : v.Within n) (hle : n ≤ n') : v.Within n' := fun id hid =>
  ⟨(h id hid).1, Nat.le_trans (h id hid).2 hle⟩

theorem within_getD {vs : Array Value} (h : ∀ v ∈ vs, v.Within n) (i : Nat) : (vs.getD i .invalid).Within n := by
  rw [Array.getD_eq_getD_getElem?]
  cases hi : vs[i]? with
  | none => exact within_of_none rfl
  | some v => exact h v (Array.mem_of_getElem? hi)

theorem object?_of_constant {o : Operand} (h : constant? o = some v) : v.object? = none := by
  cases o with
  | int t z => cases t <;> cases h <;> rfl
  | float _ => cases h; rfl
  | bool _ => cases h; rfl
  | null => cases h; rfl
  | string _ => cases h; rfl
  | reg _ => cases h
  | func _ => cases h
  | absent => cases h

theorem within_of_value? {fr : Frame} {o : Operand} (hfr : ∀ v ∈ fr.registers, v.Within n)
    (h : fr.value? o = some v) :
    v.Within n := by
  unfold Frame.value? at h
  split at h
  · exact hfr v (Array.mem_of_getElem? h)
  · cases h
    exact within_of_none rfl
  · exact within_of_none (object?_of_constant h)

theorem within_of_values {fr : Frame} {os : List Operand} {vs : List Value} (hfr : ∀ v ∈ fr.registers, v.Within n)
    (h : os.mapM fr.value? = some vs) : ∀ v ∈ vs, v.Within n := by
  induction os generalizing vs with
  | nil =>
    cases h
    exact fun v hv => absurd hv List.not_mem_nil
  | cons o os ih =>
    simp only [List.mapM_cons, Option.bind_eq_bind, Option.bind_eq_some_iff, Option.pure_def,
      Option.some.injEq] at h
    obtain ⟨w, hw, ws, hws, rfl⟩ := h
    intro v hv
    rcases List.mem_cons.1 hv with rfl | hv
    · exact within_of_value? hfr hw
    · exact ih hws v hv

theorem within_of_fieldAddr {b : Value} {slot : Nat} (hb : b.Within n) (h : Memory.fieldAddr b slot = .ok v) :
    v.Within n := by
  unfold Memory.fieldAddr at h
  split at h <;> cases h
  · exact hb
  · exact within_of_none rfl

end

/-! ### Calls of the allocator -/

/-- The object that a call of the host made. -/
def Config.allocated? (c : Config) (h : HostCall) : Option Value :=
  match c.hosts.lookup h.name with
  | some .allocate => h.answer
  | _ => none

/-- The number of the object that was given back in a call of the host. -/
def Config.givenBack? (c : Config) (h : HostCall) : Option Nat :=
  match c.hosts.lookup h.name, h.args, h.answer with
  | some .release, [_, .ptr (.object id)], some _ => some id
  | _, _, _ => none

/-- The objects that calls of the host made, in order. -/
def Config.allocated (c : Config) (hs : List HostCall) : List Value := hs.filterMap c.allocated?

/-- The objects that were given back in calls of the host, in order. -/
def Config.givenBack (c : Config) (hs : List HostCall) : List Nat := hs.filterMap c.givenBack?

section

variable {c : Config} {hs : List HostCall} {h : HostCall} {v : Value} {id : Nat}

theorem allocated_concat (c : Config) (hs : List HostCall) (h : HostCall) :
    c.allocated (hs ++ [h]) = c.allocated hs ++ (c.allocated? h).toList := by
  rw [Config.allocated, List.filterMap_append]
  cases hh : c.allocated? h <;> simp [Config.allocated, hh]

theorem givenBack_concat (c : Config) (hs : List HostCall) (h : HostCall) :
    c.givenBack (hs ++ [h]) = c.givenBack hs ++ (c.givenBack? h).toList := by
  rw [Config.givenBack, List.filterMap_append]
  cases hh : c.givenBack? h <;> simp [Config.givenBack, hh]

theorem allocated?_of_ne (hne : c.hosts.lookup h.name ≠ some .allocate) : c.allocated? h = none := by
  unfold Config.allocated?
  split
  · exact absurd ‹_› hne
  · rfl

theorem givenBack?_of_ne (hne : c.hosts.lookup h.name ≠ some .release) : c.givenBack? h = none := by
  unfold Config.givenBack?
  split
  · exact absurd ‹_› hne
  · rfl

theorem eq_of_givenBack? (hid : c.givenBack? h = some id) :
    c.hosts.lookup h.name = some .release ∧ (∃ env, h.args = [env, .ptr (.object id)]) ∧ ∃ v,
      h.answer = some v := by
  unfold Config.givenBack? at hid
  split at hid
  · rename_i env _ v hlookup hargs hanswer
    cases hid
    exact ⟨hlookup, ⟨env, hargs⟩, v, hanswer⟩
  · cases hid

/-- A call that was refused made and took nothing. -/
theorem given_of_refused (hanswer : h.answer = none) : c.allocated? h = none ∧ c.givenBack? h = none := by
  unfold Config.allocated? Config.givenBack?
  rw [hanswer]
  constructor
  · split <;> rfl
  · split
    · cases ‹none = some _›
    · rfl

end

/-! ### The memory -/

/-- The memory is what calls of the host have made of it. -/
structure Memory.Accounted (c : Config) (hs : List HostCall) (M : Memory) : Prop where
  cells_within : ∀ v ∈ M.cells, v.Within M.allocs
  slots_within : ∀ x, ∀ v ∈ (M.nth x).slots, v.Within M.allocs
  allocated_eq : c.allocated hs = (List.range' 1 M.allocs).map fun id => .ptr (.object id)
  nodup_givenBack : (c.givenBack hs).Nodup
  mem_givenBack_iff : ∀ id, id ∈ c.givenBack hs ↔ 1 ≤ id ∧ (M.nth (id - 1)).isReleased = true
  length_givenBack : (c.givenBack hs).length = M.releases
  releases_eq : M.releases = M.released
  unowned : ∀ x, (M.nth x).isReleased = true → (M.nth x).Unowned

/-- A later memory has the same objects and maybe more, and those that were given back are as they were. -/
structure Memory.Ages (M M' : Memory) : Prop where
  allocs_le : M.allocs ≤ M'.allocs
  size_eq : ∀ x < M.allocs, (M'.nth x).size = (M.nth x).size
  nth_eq : ∀ x, (M.nth x).isReleased = true → M'.nth x = M.nth x

section

variable {c : Config} {hs : List HostCall} {M M' M'' : Memory} {a v : Value} {id slot : Nat}

theorem Memory.Ages.refl (M : Memory) : M.Ages M := ⟨Nat.le_refl _, fun _ _ => rfl, fun _ _ => rfl⟩

theorem Memory.Ages.trans (h : M.Ages M') (h' : M'.Ages M'') : M.Ages M'' where
  allocs_le := Nat.le_trans h.allocs_le h'.allocs_le
  size_eq x hx := (h'.size_eq x (Nat.lt_of_lt_of_le hx h.allocs_le)).trans (h.size_eq x hx)
  nth_eq x hx := (h'.nth_eq x (h.nth_eq x hx ▸ hx)).trans (h.nth_eq x hx)

/-- What is loaded was stored, or is a number. -/
theorem Memory.Accounted.load (h : M.Accounted c hs) (hv : M.load a = .ok v) : v.Within M.allocs := by
  have hload := hv
  unfold Memory.load at hv
  split at hv
  · cases hv
  · split at hv
    · cases hv
    · cases hv
      exact within_getD h.cells_within _
  · rename_i id slot
    obtain ⟨-, -, rfl, -⟩ := Memory.load_field_eq_ok hload
    exact within_getD (h.slots_within _) slot
  · split at hv <;> cases hv
    exact within_of_none rfl
  · cases hv
  · cases hv

theorem ages_put (hs : M.checkStore a = .ok ()) (v : Value) : M.Ages (M.put a v) where
  allocs_le := Nat.le_of_eq (Memory.size_put M a v).symm
  size_eq x _ := Memory.size_nth_put M a v x
  nth_eq _ hx := Memory.nth_put_of_isReleased hs hx

theorem Memory.Accounted.put (h : M.Accounted c hs) (hstore : M.checkStore a = .ok ()) (hv : v.Within M.allocs) :
    (M.put a v).Accounted c hs := by
  have hsize : (M.put a v).allocs = M.allocs := Memory.size_put M a v
  exact {
    cells_within := fun w hw => by
      rw [hsize]
      rcases Memory.mem_cells_put hw with hw | rfl
      · exact h.cells_within w hw
      · exact hv
    slots_within := fun x w hw => by
      rw [hsize]
      rcases Memory.mem_slots_put hw with hw | rfl | rfl
      · exact h.slots_within x w hw
      · exact within_of_none rfl
      · exact hv
    allocated_eq := by rw [hsize, h.allocated_eq]
    nodup_givenBack := h.nodup_givenBack
    mem_givenBack_iff := fun id => by rw [Memory.isReleased_put, h.mem_givenBack_iff]
    length_givenBack := by rw [Memory.releases_put, h.length_givenBack]
    releases_eq := by rw [Memory.releases_put, Memory.released_put, h.releases_eq]
    unowned := fun x hx => by
      rw [Memory.isReleased_put] at hx
      rw [Memory.nth_put_of_isReleased hstore hx]
      exact h.unowned x hx }

theorem Memory.Accounted.grow (h : M.Accounted c hs) (f : Function) : (M.grow f).Accounted c hs where
  cells_within w hw := by
    rcases Array.mem_append.1 hw with hw | hw
    · exact h.cells_within w hw
    · exact within_of_none (by rw [(Array.mem_replicate.1 hw).2]; rfl)
  slots_within := h.slots_within
  allocated_eq := h.allocated_eq
  nodup_givenBack := h.nodup_givenBack
  mem_givenBack_iff := h.mem_givenBack_iff
  length_givenBack := h.length_givenBack
  releases_eq := h.releases_eq
  unowned := h.unowned

theorem ages_grow (M : Memory) (f : Function) : M.Ages (M.grow f) := ⟨Nat.le_refl _, fun _ _ => rfl, fun _ _ => rfl⟩

/-- A call of the host that neither makes nor takes an object changes nothing. -/
theorem Memory.Accounted.concat {call : HostCall} (h : M.Accounted c hs)
    (hcall : c.allocated? call = none ∧ c.givenBack? call = none) : M.Accounted c (hs ++ [call]) := by
  have hallocated : c.allocated (hs ++ [call]) = c.allocated hs := by
    rw [allocated_concat, hcall.1, Option.toList_none, List.append_nil]
  have hgiven : c.givenBack (hs ++ [call]) = c.givenBack hs := by
    rw [givenBack_concat, hcall.2, Option.toList_none, List.append_nil]
  exact { h with
    allocated_eq := hallocated.trans h.allocated_eq
    nodup_givenBack := hgiven ▸ h.nodup_givenBack
    mem_givenBack_iff := fun id => hgiven ▸ h.mem_givenBack_iff id
    length_givenBack := hgiven ▸ h.length_givenBack }

theorem ages_addObject (M : Memory) (size : Int) : M.Ages (M.addObject size) where
  allocs_le := by
    simp only [Memory.allocs, Memory.size_addObject]
    exact Nat.le_succ _
  size_eq x hx := congrArg Object.size ((Memory.nth_addObject M size x).trans (if_neg (Nat.ne_of_lt hx)))
  nth_eq x hx := (Memory.nth_addObject M size x).trans (if_neg (Nat.ne_of_lt (Memory.lt_of_isReleased hx)))

theorem Memory.Accounted.addObject {call : HostCall} (h : M.Accounted c hs) (size : Int)
    (hhost : c.hosts.lookup call.name = some .allocate)
    (hanswer : call.answer = some (.ptr (.object (M.allocs + 1)))) :
    (M.addObject size).Accounted c (hs ++ [call]) := by
  have hsize : (M.addObject size).allocs = M.allocs + 1 := Memory.size_addObject M size
  have hallocated : c.allocated? call = some (.ptr (.object (M.allocs + 1))) := by
    unfold Config.allocated?
    rw [hhost, hanswer]
  have hgiven : c.givenBack (hs ++ [call]) = c.givenBack hs := by
    rw [givenBack_concat, givenBack?_of_ne (by rw [hhost]; exact nofun), Option.toList_none, List.append_nil]
  have hreleased : ∀ x, ((M.addObject size).nth x).isReleased = (M.nth x).isReleased := fun x => by
    rw [Memory.nth_addObject]
    split
    · refine (Bool.eq_false_iff.2 fun hr => ?_).symm
      exact Nat.lt_irrefl _ (‹x = M.objects.size› ▸ Memory.lt_of_isReleased hr)
    · rfl
  exact {
    cells_within := fun w hw => (h.cells_within w hw).mono (ages_addObject M size).allocs_le
    slots_within := fun x w hw => by
      rw [Memory.nth_addObject] at hw
      split at hw
      · exact absurd hw (Array.not_mem_empty w)
      · exact (h.slots_within x w hw).mono (ages_addObject M size).allocs_le
    allocated_eq := by
      rw [allocated_concat, hallocated, h.allocated_eq, hsize, List.range'_concat, List.map_append]
      simp [Nat.add_comm]
    nodup_givenBack := hgiven ▸ h.nodup_givenBack
    mem_givenBack_iff := fun id => by rw [hgiven, hreleased, h.mem_givenBack_iff]
    length_givenBack := hgiven ▸ h.length_givenBack
    releases_eq := h.releases_eq.trans (Memory.released_addObject M size).symm
    unowned := fun x hx => by
      rw [hreleased] at hx
      rw [(ages_addObject M size).nth_eq x hx]
      exact h.unowned x hx }

theorem ages_giveBack (hlive : (M.nth (id - 1)).isReleased = false) : M.Ages (M.giveBack id) where
  allocs_le := Nat.le_of_eq (Memory.size_giveBack M id).symm
  size_eq x _ := by
    rw [Memory.nth_giveBack]
    split <;> rfl
  nth_eq x hx := by
    rw [Memory.nth_giveBack, if_neg]
    rintro ⟨rfl, -⟩
    rw [hlive] at hx
    cases hx

theorem Memory.Accounted.giveBack {call : HostCall} {env : Value} (h : M.Accounted c hs)
    (hcheck : M.checkRelease (.ptr (.object id)) = .ok id) (hid : 1 ≤ id ∧ id ≤ M.allocs)
    (hhost : c.hosts.lookup call.name = some .release) (hargs : call.args = [env, .ptr (.object id)])
    (hanswer : call.answer = some .invalid) : (M.giveBack id).Accounted c (hs ++ [call]) := by
  obtain ⟨-, hlive, hunowned⟩ := Memory.eq_of_checkRelease hcheck
  have hsize : (M.giveBack id).allocs = M.allocs := Memory.size_giveBack M id
  have hplace : id - 1 < M.objects.size := by
    have := hid.2
    unfold Memory.allocs at this
    omega
  have hallocated : c.allocated (hs ++ [call]) = c.allocated hs := by
    rw [allocated_concat, allocated?_of_ne (by rw [hhost]; exact nofun), Option.toList_none, List.append_nil]
  have hgiven : c.givenBack (hs ++ [call]) = c.givenBack hs ++ [id] := by
    have hcall : c.givenBack? call = some id := by
      unfold Config.givenBack?
      rw [hhost, hargs, hanswer]
    rw [givenBack_concat, hcall, Option.toList_some]
  have hnew : id ∉ c.givenBack hs := fun hmem => by
    rw [h.mem_givenBack_iff, hlive] at hmem
    exact Bool.noConfusion hmem.2
  exact {
    cells_within := fun w hw => hsize ▸ h.cells_within w hw
    slots_within := fun x w hw => by
      rw [hsize]
      rw [Memory.nth_giveBack] at hw
      split at hw <;> exact h.slots_within x w hw
    allocated_eq := by rw [hallocated, hsize, h.allocated_eq]
    nodup_givenBack := by
      rw [hgiven]
      exact List.nodup_append.2 ⟨h.nodup_givenBack, List.pairwise_singleton _ id, by
        rintro a ha b hb rfl
        exact hnew (List.mem_singleton.1 hb ▸ ha)⟩
    mem_givenBack_iff := fun j => by
      rw [hgiven, List.mem_append, List.mem_singleton, h.mem_givenBack_iff, Memory.nth_giveBack]
      by_cases hj : j - 1 = id - 1 ∧ j - 1 < M.objects.size
      · rw [if_pos hj]
        have := hj.1
        constructor
        · rintro (⟨hpos, -⟩ | rfl)
          · exact ⟨hpos, rfl⟩
          · exact ⟨hid.1, rfl⟩
        · rintro ⟨hpos, -⟩
          exact .inr (by omega)
      · rw [if_neg hj]
        constructor
        · rintro (hold | rfl)
          · exact hold
          · exact absurd ⟨rfl, hplace⟩ hj
        · exact .inl
    length_givenBack := by
      rw [hgiven, List.length_append, h.length_givenBack]
      rfl
    releases_eq := (congrArg (· + 1) h.releases_eq).trans (Memory.released_giveBack hplace hlive).symm
    unowned := fun x hx => by
      rw [Memory.nth_giveBack] at hx ⊢
      split at hx
      · rename_i hx'
        rw [if_pos hx', hx'.1]
        exact hunowned
      · rename_i hx'
        rw [if_neg hx']
        exact h.unowned x hx }

end

/-! ### What the host does -/

/-- What the host answers and makes of the memory, unless it refuses. -/
def Host.act? (M : Memory) : Host → List Value → Option (Value × Memory)
  | .allocate, [_, .int size] => if size ≤ 0 then none else some (.ptr (.object (M.allocs + 1)), M.addObject size)
  | .release, [_, v] => (M.checkRelease v).toOption.map fun id => (.invalid, M.giveBack id)
  | .print, _ :: _ => some (.invalid, M)
  | .answer f, vs => (f vs).toOption.map fun v => (v, M)
  | _, _ => none

/-- The host provides the two functions of the allocator and printers only. -/
def Config.IsPlain (c : Config) : Prop :=
  ∀ name host, c.hosts.lookup name = some host → host = .allocate ∨ host = .release ∨ host = .print

/-- The memory and the active calls are what calls of the host have made of them. -/
structure Accounted (c : Config) (hs : List HostCall) (M : Memory) (F : List Frame) : Prop where
  memory : M.Accounted c hs
  registers_within : ∀ fr ∈ F, ∀ v ∈ fr.registers, v.Within M.allocs

section

variable {c : Config} {hs : List HostCall} {M M' : Memory} {F : List Frame} {fr : Frame}
    {host : Host} {name : String}
  {vs : List Value} {v : Value} {k : Nat} {calls : Array (List Value)} {events : Array Event}

/-- What the host does in a run. -/
theorem after_callHost_act : after (callHost c name host vs)
    (fun v s => host.act? M vs = some (v, s.memory) ∧ s.frames = F)
    (fun _ s => host.act? M vs = none ∧ s.memory = M ∧ s.frames = F) ⟨M, F, k, calls, events⟩ := by
  unfold callHost
  split
  · rename_i env size
    have hnumber : (M.addObject size).allocs = M.allocs + 1 := Memory.size_addObject M size
    rw [after_bind, after_ofExcept, Memory.checkSize]
    by_cases hsize : size ≤ 0
    · rw [if_pos hsize]
      exact ⟨if_pos hsize, rfl, rfl⟩
    · rw [if_neg hsize, after_bind]
      simp only [after_bind]
      refine after_record fun events => ⟨(if_neg hsize).trans ?_, rfl⟩
      rw [← hnumber]
      rfl
  · rename_i hargs
    refine ⟨?_, rfl, rfl⟩
    unfold Host.act?
    split
    · exact absurd rfl (hargs _ _)
    all_goals first | rfl | contradiction
  · rename_i env w
    rw [after_bind, after_get, after_bind, after_ofExcept]
    cases hcheck : M.checkRelease w with
    | error f =>
      refine ⟨?_, rfl, rfl⟩
      simp only [Host.act?, hcheck, Except.toOption, Option.map_none]
    | ok id =>
      simp only [after_bind]
      refine after_record fun events => ⟨?_, rfl⟩
      simp only [Host.act?, hcheck, Except.toOption, Option.map_some]
  · rename_i hargs
    refine ⟨?_, rfl, rfl⟩
    unfold Host.act?
    split
    case h_2 => exact absurd rfl (hargs _ _)
    all_goals first | rfl | contradiction
  · exact ⟨rfl, rfl, rfl⟩
  · exact ⟨rfl, rfl⟩
  · rename_i f args
    split
    · rename_i v hv
      refine ⟨?_, rfl⟩
      simp only [Host.act?, hv, Except.toOption, Option.map]
    · rename_i message hv
      refine ⟨?_, rfl, rfl⟩
      simp only [Host.act?, hv, Except.toOption, Option.map]

/-- The call of the host that calling a function is depends on the memory only. -/
theorem hostCall?_eq (c : Config) (g : Function) (vs : List Value) (s : State) : c.hostCall? g vs s =
    if g.isDefined then none
    else (c.hosts.lookup g.name).map fun host => ⟨g.name, vs, (host.act? s.memory vs).map Prod.fst⟩ := by
  have hanswer : ∀ host : Host, ((callHost c g.name host vs).run.run s).1.toOption =
    (host.act? s.memory vs).map Prod.fst := by
    intro host
    have hact : after (callHost c g.name host vs)
        (fun v s' => host.act? s.memory vs = some (v, s'.memory) ∧ s'.frames = s.frames)
        (fun _ s' => host.act? s.memory vs = none ∧ s'.memory = s.memory ∧ s'.frames = s.frames) s :=
        after_callHost_act
    unfold after at hact
    split at hact
    · rename_i hr
      rw [hr, hact.1]
      rfl
    · rename_i hr
      rw [hr, hact.1]
      rfl
  unfold Config.hostCall?
  simp only [hanswer]

theorem eq_of_act?_allocate (h : Host.allocate.act? M vs = some (v, M')) :
    ∃ size, v = .ptr (.object (M.allocs + 1)) ∧ M' = M.addObject size := by
  unfold Host.act? at h
  split at h <;> try contradiction
  rename_i env size _
  split at h <;> cases h
  exact ⟨size, rfl, rfl⟩

theorem eq_of_act?_release (h : Host.release.act? M vs = some (v, M')) :
    ∃ env id, vs = [env, .ptr (.object id)] ∧ M.checkRelease (.ptr (.object id)) = .ok id ∧ v = .invalid ∧
      M' = M.giveBack id := by
  unfold Host.act? at h
  split at h <;> try contradiction
  rename_i env w _
  cases hcheck : M.checkRelease w with
  | error f =>
    rw [hcheck] at h
    cases h
  | ok id =>
    rw [hcheck] at h
    cases h
    obtain ⟨rfl, -⟩ := Memory.eq_of_checkRelease hcheck
    exact ⟨env, id, rfl, hcheck, rfl, rfl⟩

theorem eq_of_act?_print (h : Host.print.act? M vs = some (v, M')) : v = .invalid ∧ M' = M := by
  unfold Host.act? at h
  split at h <;> try contradiction
  cases h
  exact ⟨rfl, rfl⟩

/-- What the allocator and printers do is accounted for. -/
theorem Memory.Accounted.act (hc : c.IsPlain) (h : M.Accounted c hs) (hlookup : c.hosts.lookup name = some host)
    (hvs : ∀ v ∈ vs, v.Within M.allocs) (hact : host.act? M vs = some (v, M')) :
    M'.Accounted c (hs ++ [⟨name, vs, some v⟩]) ∧ M.Ages M' ∧ v.Within M'.allocs := by
  obtain rfl | rfl | rfl := hc name host hlookup
  · obtain ⟨size, rfl, rfl⟩ := eq_of_act?_allocate hact
    refine ⟨h.addObject size hlookup rfl, ages_addObject M size, fun id hid => ?_⟩
    cases hid
    exact ⟨Nat.succ_pos _, Nat.le_of_eq (Memory.size_addObject M size).symm⟩
  · obtain ⟨env, id, rfl, hcheck, rfl, rfl⟩ := eq_of_act?_release hact
    have hid := hvs _ (List.mem_cons_of_mem _ (List.mem_singleton_self _)) id rfl
    exact ⟨h.giveBack hcheck hid hlookup rfl rfl, ages_giveBack (Memory.eq_of_checkRelease hcheck).2.1,
      within_of_none rfl⟩
  · obtain ⟨rfl, rfl⟩ := eq_of_act?_print hact
    refine ⟨h.concat ⟨allocated?_of_ne ?_, givenBack?_of_ne ?_⟩, .refl M', within_of_none rfl⟩
    · rw [hlookup]
      exact nofun
    · rw [hlookup]
      exact nofun

end

/-! ### Instructions -/

/-- After calls of the host the state is accounted for, and it is later than one with the given memory. -/
def Follows (c : Config) (hs : List HostCall) (M : Memory) (s : State) : Prop :=
  Accounted c hs s.memory s.frames ∧ M.Ages s.memory

section

variable {c : Config} {hs : List HostCall} {M M' : Memory} {F rest : List Frame} {fr : Frame}
    {host : Host} {name : String}
  {vs : List Value} {v : Value} {k : Nat} {calls : Array (List Value)} {events : Array Event} {s : State}

theorem Accounted.follows (h : Accounted c hs M F) : Follows c hs M ⟨M, F, k, calls, events⟩ := ⟨h, .refl M⟩

theorem Accounted.pop (h : Accounted c hs M (fr :: rest)) : Accounted c hs M rest :=
  ⟨h.memory, fun fr hfr => h.registers_within fr (List.mem_cons_of_mem _ hfr)⟩

/-- Another innermost call may take the place of the old one if it knows the same objects. -/
theorem Accounted.push (h : Accounted c hs M rest) (hfr : ∀ v ∈ fr.registers, v.Within M.allocs) :
    Accounted c hs M (fr :: rest) := by
  refine ⟨h.memory, fun fr' hfr' => ?_⟩
  rcases List.mem_cons.1 hfr' with rfl | hfr'
  · exact hfr
  · exact h.registers_within fr' hfr'

theorem Accounted.set (h : Accounted c hs M (fr :: rest)) (hv : v.Within M.allocs) (dst : Option Nat) :
    Accounted c hs M (fr.set dst v :: rest) := by
  refine h.pop.push fun w hw => ?_
  cases dst with
  | none => exact h.registers_within fr List.mem_cons_self w hw
  | some d =>
    rcases Array.mem_or_eq_of_mem_setIfInBounds hw with hw | rfl
    · exact h.registers_within fr List.mem_cons_self w hw
    · exact hv

theorem Accounted.goto (h : Accounted c hs M (fr :: rest)) (block : Nat) : Accounted c hs M
    (fr.goto block :: rest) :=
  h.pop.push (h.registers_within fr List.mem_cons_self)

theorem Accounted.of_memory (h : Accounted c hs M F) {hs' : List HostCall} (hM : M'.Accounted c hs')
    (hages : M.Ages M') :
    Accounted c hs' M' F :=
  ⟨hM, fun fr hfr v hv => (h.registers_within fr hfr v hv).mono hages.allocs_le⟩

/-- An operand has a value that is accounted for, or is malformed. -/
theorem after_operand_follows {Q : Value → State → Prop} {o : Operand} (h : Accounted c hs M (fr :: rest))
    (hQ : ∀ v, fr.value? o = some v → v.Within M.allocs → Q v ⟨M, fr :: rest, k, calls, events⟩) :
    after (operand o) Q (fun _ => Follows c hs M) ⟨M, fr :: rest, k, calls, events⟩ := by
  cases hv : fr.value? o with
  | none => exact after_no_value hv fun _ _ => h.follows
  | some v => exact after_value hv (hQ v hv (within_of_value? (h.registers_within fr List.mem_cons_self) hv))

theorem after_attempt_follows {α : Type} {Q : α → State → Prop} {r : Except Failure α} (h : Accounted c hs M F)
    (hQ : ∀ a, r = .ok a → Q a ⟨M, F, k, calls, events⟩) :
    after (ofExcept r) Q (fun _ => Follows c hs M) ⟨M, F, k, calls, events⟩ := by
  rw [after_ofExcept]
  split
  · exact hQ _ rfl
  · exact h.follows

theorem after_enterBlock_follows {block : Nat} (h : Accounted c hs M (fr :: rest)) :
    after (do enterBlock fr.function block; return (none : Option Value)) (fun _ => Follows c hs M)
      (fun _ => Follows c hs M)
      ⟨M, fr :: rest, k, calls, events⟩ := by
  simp only [enterBlock, after_bind, after_ite]
  split
  · exact h.follows
  · exact (h.goto block).follows

theorem after_leave_follows (h : Accounted c hs M (fr :: rest)) (hv : v.Within M.allocs) :
    after (leave v) (fun _ => Follows c hs M) (fun _ => Follows c hs M) ⟨M, fr :: rest, k, calls, events⟩ := by
  cases rest with
  | nil => exact h.pop.follows
  | cons caller rest => exact (h.pop.set hv (some fr.dst)).follows

theorem after_callHost_follows (hc : c.IsPlain) (h : Accounted c hs M F) (hlookup : c.hosts.lookup name = some host)
    (hvs : ∀ v ∈ vs, v.Within M.allocs) :
    after (callHost c name host vs)
      (fun v s' => Follows c (hs ++ [⟨name, vs, (host.act? M vs).map Prod.fst⟩]) M s' ∧
        v.Within s'.memory.allocs ∧ s'.frames = F)
      (fun _ => Follows c (hs ++ [⟨name, vs, (host.act? M vs).map Prod.fst⟩]) M) ⟨M, F, k, calls, events⟩ := by
  refine after_callHost_act.mono (fun v s' ⟨hact, hframes⟩ => ?_) fun f s' ⟨hact, hmemory, hframes⟩ => ?_
  · obtain ⟨hM, hages, hv⟩ := h.memory.act hc hlookup hvs hact
    unfold Follows
    rw [hact, hframes]
    exact ⟨⟨h.of_memory hM hages, hages⟩, hv, rfl⟩
  · unfold Follows
    rw [hact, hframes, hmemory]
    exact ⟨h.of_memory (h.memory.concat (given_of_refused rfl)) (.refl M), .refl M⟩

theorem Accounted.enter {g : Function} (h : Accounted c hs M F) (hvs : ∀ v ∈ vs, v.Within M.allocs) (d : Nat) :
    Accounted c hs (M.grow g) (Frame.enter g vs d M.cells.size :: F) := by
  refine (h.of_memory (h.memory.grow g) (ages_grow M g)).push fun v hv => ?_
  rcases mem_registers_enter hv with hv | rfl | ⟨cell, rfl⟩
  · exact hvs v hv
  · exact within_of_none rfl
  · exact within_of_none rfl

/-- Calling a function keeps what is accounted for, and gives nothing else. -/
theorem after_invoke_follows {g : Function} {d : Nat} (hc : c.IsPlain) (h : Accounted c hs M F)
    (hvs : ∀ v ∈ vs, v.Within M.allocs) (hs₀ : s.memory = M) :
    after (invoke c g vs d)
      (fun r s' => Follows c (hs ++ (c.hostCall? g vs s).toList) M s' ∧
        (∀ v, r = some v → v.Within s'.memory.allocs ∧ s'.frames = F) ∧ (r = none → c.hostCall? g vs s = none))
      (fun _ => Follows c (hs ++ (c.hostCall? g vs s).toList) M) ⟨M, F, k, calls, events⟩ := by
  rw [hostCall?_eq, hs₀]
  unfold invoke
  cases hd : g.isDefined with
  | false =>
    simp only [Bool.not_false, Bool.false_eq_true, ↓reduceIte]
    cases hlookup : c.hosts.lookup g.name with
    | none =>
      rw [Option.map_none, Option.toList_none, List.append_nil]
      exact h.follows
    | some host =>
      simp only [Option.map_some, Option.toList_some, after_bind, after_get]
      refine after_record fun events => ?_
      refine (after_callHost_follows hc h hlookup hvs).imp fun v s' hact => ?_
      exact ⟨hact.1, fun w hw => Option.some.inj hw ▸ hact.2, fun hn => absurd hn (Option.some_ne_none v)⟩
  | true =>
    simp only [Bool.not_true, Bool.false_eq_true, ↓reduceIte, Option.toList_none, List.append_nil, after_ite]
    split
    · exact h.follows
    · simp only [after_bind, after_modify, enterBlock, after_ite]
      have hentered := h.enter (g := g) hvs d
      split
      · exact ⟨hentered, ages_grow M g⟩
      · exact ⟨⟨hentered.goto 0, ages_grow M g⟩, fun v hv => absurd hv.symm (Option.some_ne_none v),
          fun _ => trivial⟩

/-- An instruction keeps what is accounted for. -/
theorem after_execute_follows {line : Line} (hc : c.IsPlain) (h : Accounted c hs M (fr :: rest))
    (hs₀ : s.memory = M) :
    after (execute c fr.function line) (fun _ => Follows c (hs ++ fr.hostCalls c s line.instr) M)
      (fun _ => Follows c (hs ++ fr.hostCalls c s line.instr) M) ⟨M, fr :: rest, k, calls, events⟩ := by
  obtain ⟨dst, instr⟩ := line
  -- only calls of functions are calls of the host
  cases instr with
  | call sig callee args =>
    have hkept : Follows c (hs ++ []) M ⟨M, fr :: rest, k, calls, events⟩ := (List.append_nil hs).symm ▸ h.follows
    simp only [execute, after_bind, Frame.hostCalls]
    cases hcallee : fr.value? callee with
    | none => exact after_no_value hcallee fun _ _ => hkept
    | some w =>
      refine after_value hcallee ?_
      match w with
      | .ptr (.code name) =>
        dsimp only
        rw [after_bind]
        cases hvs : args.mapM fr.value? with
        | none => exact after_no_values hvs fun _ _ => hkept
        | some vs =>
          refine after_values hvs ?_
          dsimp only
          cases hfind : c.module.find? name with
          | none => exact hkept
          | some g =>
            have hwithin := within_of_values (h.registers_within fr List.mem_cons_self) hvs
            dsimp only [Option.bind_some]
            rw [after_bind]
            refine (after_invoke_follows hc h hwithin hs₀).imp fun r s' ⟨hfollows, hresult, _⟩ => ?_
            cases r with
            | none => exact hfollows
            | some v =>
              obtain ⟨hv, hframes⟩ := hresult v rfl
              obtain ⟨M', F', k', calls', events'⟩ := s'
              cases hframes
              exact ⟨hfollows.1.set hv dst, hfollows.2⟩
      | .ptr .null | .ptr (.object _) | .ptr (.field _ _) | .ptr (.stack _) | .ptr
        (.codeField _ _) | .ptr (.string _)
      | .invalid | .int _ | .bool _ | .float _ => exact hkept
  | fieldAddr struct base slot =>
    simp only [execute, after_bind, Frame.hostCalls, List.append_nil]
    refine after_operand_follows h fun b hb hwithin => ?_
    refine after_attempt_follows h fun v hv => ?_
    exact (h.set (within_of_fieldAddr hwithin hv) dst).follows
  | load t addr =>
    simp only [execute, after_bind, Frame.hostCalls, List.append_nil]
    refine after_operand_follows h fun a ha hwithin => ?_
    rw [after_get]
    refine after_attempt_follows h fun v hv => ?_
    exact (h.set (h.memory.load hv) dst).follows
  | store addr value =>
    simp only [execute, after_bind, Frame.hostCalls, List.append_nil]
    refine after_operand_follows h fun a ha hwithin => ?_
    refine after_operand_follows h fun v hv hwithin => ?_
    rw [after_get]
    refine after_attempt_follows h fun _ hstore => ?_
    have hput := h.of_memory (h.memory.put hstore hwithin) (ages_put hstore v)
    exact ⟨hput.set (within_of_none rfl) none, ages_put hstore v⟩
  | binary op x y =>
    simp only [execute, after_bind, Frame.hostCalls, List.append_nil]
    refine after_operand_follows h fun a ha hwithin => ?_
    refine after_operand_follows h fun b hb hwithin => ?_
    refine after_attempt_follows h fun v hv => ?_
    have hnumber : v.object? = none := by
      obtain ⟨z, rfl⟩ | ⟨z, rfl⟩ := number_of_binary hv <;> rfl
    exact (h.set (within_of_none hnumber) dst).follows
  | compare p x y =>
    simp only [execute, after_bind, Frame.hostCalls, List.append_nil]
    refine after_operand_follows h fun a ha hwithin => ?_
    refine after_operand_follows h fun b hb hwithin => ?_
    refine after_attempt_follows h fun v hv => ?_
    obtain ⟨b, rfl⟩ := bool_of_compare hv
    exact (h.set (within_of_none rfl) dst).follows
  | condBr cond yes no =>
    simp only [execute, after_bind, Frame.hostCalls, List.append_nil]
    refine after_operand_follows h fun v hv hwithin => ?_
    split
    · exact after_enterBlock_follows h
    · exact h.follows
  | br block =>
    simp only [Frame.hostCalls, List.append_nil]
    exact after_enterBlock_follows h
  | ret value =>
    simp only [Frame.hostCalls, List.append_nil]
    cases value with
    | none => exact after_leave_follows h (within_of_none rfl)
    | some value =>
      simp only [execute, after_bind]
      exact after_operand_follows h fun v hv hwithin => after_leave_follows h hwithin

end

/-! ### Runs -/

/-- The run of a function gets to a state, in which it goes on or ends. -/
def Config.Reaches (c : Config) (name : String) (args : List Value) (hs : List HostCall) (s : State) : Prop :=
  c.Passes name args hs s ∨ ∃ o, c.Comes name args hs o s

/-- Instructions lead from a state to another one, in which the run goes on or ends. -/
def Evolves (c : Config) (s : State) (hs : List HostCall) (s' : State) : Prop :=
  Goes c s hs s' ∨ ∃ o, Finishes c s hs o s'

/-- What the heap tells about the calls of the host that led to a state is right. -/
structure Instrumented (c : Config) (hs : List HostCall) (s : State) : Prop where
  /-- Objects are numbered from one as they are allocated. -/
  allocated_eq : c.allocated hs = (List.range' 1 s.memory.allocs).map fun id => .ptr (.object id)
  /-- There are no pointers to anything but these objects. -/
  registers_within : ∀ fr ∈ s.frames, ∀ v ∈ fr.registers, v.Within s.memory.allocs
  cells_within : ∀ v ∈ s.memory.cells, v.Within s.memory.allocs
  slots_within : ∀ id, ∀ v ∈ (s.memory.object id).slots, v.Within s.memory.allocs
  /-- The objects that were given back are counted. -/
  releases_eq : s.memory.releases = s.memory.released
  length_givenBack : (c.givenBack hs).length = s.memory.releases
  /-- No object was given back twice. -/
  nodup_givenBack : (c.givenBack hs).Nodup
  mem_givenBack_iff : ∀ id, id ∈ c.givenBack hs ↔ 1 ≤ id ∧ id ≤ s.memory.allocs ∧
    (s.memory.object id).isReleased = true
  /-- What was given back has no owner. -/
  unowned : ∀ id ∈ c.givenBack hs, (s.memory.object id).Unowned
  /-- What is given back next is in use and has no owner. -/
  unowned_next : ∀ id ∈ c.givenBack (s.hostCalls c),
    1 ≤ id ∧ id ≤ s.memory.allocs ∧ (s.memory.object id).isReleased = false ∧ (s.memory.object id).Unowned
  /-- What was given back cannot be read or written. -/
  load_givenBack : ∀ id ∈ c.givenBack hs, ∀ slot,
    ∃ f, s.memory.load (.ptr (.field id slot)) = .error f ∧ f.code = .useAfterRelease
  store_givenBack : ∀ id ∈ c.givenBack hs, ∀ slot v,
    ∃ f, s.memory.store (.ptr (.field id slot)) v = .error f ∧ f.code = .useAfterRelease
  checkBalanced_iff : s.memory.checkBalanced = .ok () ↔ s.memory.allocs = s.memory.releases

section

variable {c : Config} {hs hs' : List HostCall} {s s' : State} {o : Outcome} {id : Nat} {name : String}
    {args : List Value}

theorem holds_of_after {α : Type} {act : Exec α} {P : State → Prop} (h : after act (fun _ => P) (fun _ => P) s) :
    P (act.run.run s).2 := by
  unfold after at h
  split at h
  · rename_i hr
    rwa [hr]
  · rename_i hr
    rwa [hr]

/-- The next instruction keeps what is accounted for, also if it fails. -/
theorem Accounted.step {r : Except Failure (Option Value)} (hc : c.IsPlain) (h : Accounted c hs s.memory s.frames)
    (hstep : (step c).run.run s = (r, s')) : Follows c (hs ++ s.hostCalls c) s.memory s' := by
  have hend : s' = ((Machine.step c).run.run s).2 := by rw [hstep]
  subst hend
  obtain ⟨M, F, k, calls, events⟩ := s
  cases F with
  | nil =>
    rw [run_step_nil rfl]
    exact (List.append_nil hs).symm ▸ h.follows
  | cons fr rest =>
    have hkept : ∀ k events, Follows c (hs ++ []) M ⟨M, fr :: rest, k, calls, events⟩ := fun _ _ =>
      (List.append_nil hs).symm ▸ h.follows
    rw [run_step rfl]
    unfold State.hostCalls perform
    dsimp only
    cases State.isOver c ⟨M, fr :: rest, k, calls, events⟩ with
    | true => exact hkept _ _
    | false =>
      simp only [Bool.false_eq_true, ↓reduceIte]
      refine holds_of_after ?_
      cases fr.line? with
      | none => exact hkept _ _
      | some line =>
        dsimp only [Option.elim_some]
        rw [after_ite]
        split
        · rw [after_bind, after_get, after_bind]
          exact after_record fun events => after_execute_follows hc h rfl
        · exact after_execute_follows hc h rfl

theorem Goes.follows (hc : c.IsPlain) (hgoes : Goes c s hs' s') (h : Accounted c hs s.memory s.frames) :
    Follows c (hs ++ hs') s.memory s' := by
  induction hgoes generalizing hs with
  | refl s => exact (List.append_nil hs).symm ▸ h.follows
  | step hstep _ ih =>
    obtain ⟨haccounted, hages⟩ := h.step hc hstep
    obtain ⟨haccounted', hages'⟩ := ih haccounted
    exact ⟨List.append_assoc .. ▸ haccounted', hages.trans hages'⟩

theorem Finishes.follows (hc : c.IsPlain) (hend : Finishes c s hs' o s') (h : Accounted c hs s.memory s.frames) :
    Follows c (hs ++ hs') s.memory s' := by
  induction hend generalizing hs with
  | value hstep => exact h.step hc hstep
  | failure hstep => exact h.step hc hstep
  | step hstep _ ih =>
    obtain ⟨haccounted, hages⟩ := h.step hc hstep
    obtain ⟨haccounted', hages'⟩ := ih haccounted
    exact ⟨List.append_assoc .. ▸ haccounted', hages.trans hages'⟩

theorem Evolves.follows (hc : c.IsPlain) (hevolves : Evolves c s hs' s') (h : Accounted c hs s.memory s.frames) :
    Follows c (hs ++ hs') s.memory s' := by
  rcases hevolves with hgoes | ⟨o, hend⟩
  · exact hgoes.follows hc h
  · exact hend.follows hc h

theorem accounted_start (c : Config) : Accounted c [] {} [] where
  memory :=
    { cells_within := fun v hv => absurd hv (Array.not_mem_empty v)
      slots_within := fun _ v hv => absurd hv (Array.not_mem_empty v)
      allocated_eq := rfl
      nodup_givenBack := List.nodup_nil
      mem_givenBack_iff := fun _ => iff_of_false List.not_mem_nil (nomatch ·.2)
      length_givenBack := rfl
      releases_eq := rfl
      unowned := nofun }
  registers_within := nofun

theorem Config.Reaches.accounted (hc : c.IsPlain) (hargs : ∀ v ∈ args, v.object? = none)
    (h : c.Reaches name args hs s) :
    Accounted c hs s.memory s.frames := by
  have hwithin : ∀ v ∈ args, v.Within 0 := fun v hv => within_of_none (hargs v hv)
  have hinvoke : ∀ f, after (invoke c f args 0)
      (fun r s => Follows c (c.hostCall? f args {}).toList {} s ∧ (r = none → c.hostCall? f args {} = none))
      (fun _ s => Follows c (c.hostCall? f args {}).toList {} s) {} := fun f =>
    (after_invoke_follows (s := {}) hc (accounted_start c) hwithin rfl).imp fun _ _ h => ⟨h.1, h.2.2⟩
  unfold after at hinvoke
  have hentered : ∀ {f s₀}, (invoke c f args 0).run.run {} = (.ok none, s₀) →
    Accounted c [] s₀.memory s₀.frames := by
    intro f s₀ hrun
    have hf := hinvoke f
    rw [hrun] at hf
    have hfollows := hf.1.1
    rwa [hf.2 rfl] at hfollows
  rcases h with ⟨f, s₀, -, hrun, hgoes⟩ | ⟨o, hcomes⟩
  · exact (hgoes.follows hc (hentered hrun)).1
  · cases hcomes with
    | noFunction => exact accounted_start c
    | @answered f _ _ _ hrun =>
      have hf := hinvoke f
      rw [hrun] at hf
      exact hf.1.1
    | @refused f _ _ _ hrun =>
      have hf := hinvoke f
      rw [hrun] at hf
      exact hf.1
    | finished _ hrun hrest => exact (hrest.follows hc (hentered hrun)).1

/-- An object that is given back was accepted. -/
theorem checkRelease_of_givenBack? {g : Function} {vs : List Value} {call : HostCall}
    (hcall : c.hostCall? g vs s = some call) (hid : c.givenBack? call = some id) :
    .ptr (.object id) ∈ vs ∧ s.memory.checkRelease (.ptr (.object id)) = .ok id := by
  obtain ⟨hrelease, ⟨env, hargs⟩, v, hanswer⟩ := eq_of_givenBack? hid
  rw [hostCall?_eq] at hcall
  split at hcall
  · cases hcall
  · obtain ⟨host, hlookup, rfl⟩ := Option.map_eq_some_iff.1 hcall
    cases hlookup.symm.trans hrelease
    obtain ⟨⟨w, M'⟩, hact, -⟩ := Option.map_eq_some_iff.1 hanswer
    obtain ⟨env', id', hvs, hcheck, -⟩ := eq_of_act?_release hact
    cases hargs.symm.trans hvs
    exact ⟨hvs ▸ List.mem_cons_of_mem _ (List.mem_singleton_self _), hcheck⟩

/-- In a call of the host a function is called with what is at hand in an active call. -/
theorem exists_of_mem_hostCalls {call : HostCall} (h : call ∈ s.hostCalls c) :
    ∃ fr ∈ s.frames, ∃ g vs, ∃ os : List Operand, os.mapM fr.value? = some vs ∧ c.hostCall? g vs s = some call := by
  unfold State.hostCalls at h
  split at h
  · cases h
  · rename_i fr rest hframes
    split at h
    · cases h
    · cases hline : fr.line? with
      | none =>
        rw [hline] at h
        cases h
      | some line =>
        rw [hline, Option.elim_some] at h
        unfold Frame.hostCalls at h
        split at h
        · split at h
          · rename_i vs _ hvs
            obtain ⟨g, -, hcall⟩ := Option.bind_eq_some_iff.1 (Option.mem_toList.1 h)
            exact ⟨fr, hframes ▸ List.mem_cons_self, g, vs, _, hvs, hcall⟩
          · cases h
        · cases h

/-- What is given back next is in use and has no owner. -/
theorem Accounted.next (h : Accounted c hs s.memory s.frames) (hid : id ∈ c.givenBack (s.hostCalls c)) :
    1 ≤ id ∧ id ≤ s.memory.allocs ∧ (s.memory.object id).isReleased = false ∧ (s.memory.object id).Unowned := by
  obtain ⟨call, hcall, hgiven⟩ := List.mem_filterMap.1 hid
  obtain ⟨fr, hfr, g, vs, os, hvs, hcall⟩ := exists_of_mem_hostCalls hcall
  obtain ⟨hmem, hcheck⟩ := checkRelease_of_givenBack? hcall hgiven
  obtain ⟨-, hlive, hunowned⟩ := Memory.eq_of_checkRelease hcheck
  obtain ⟨hpos, hle⟩ := within_of_values (h.registers_within fr hfr) hvs _ hmem id rfl
  exact ⟨hpos, hle, hlive, hunowned⟩

theorem useAfterRelease_of_isReleased (M : Memory) (slot : Nat) (h : (M.object id).isReleased = true) :
    ∃ f, M.checkLive id slot = .error f ∧ f.code = .useAfterRelease := by
  unfold Memory.checkLive
  rw [if_pos h]
  exact ⟨_, rfl, rfl⟩

theorem Accounted.instrumented (h : Accounted c hs s.memory s.frames) : Instrumented c hs s := by
  have hreleased : ∀ id ∈ c.givenBack hs, (s.memory.object id).isReleased = true := fun id hid =>
    ((h.memory.mem_givenBack_iff id).1 hid).2
  exact {
    allocated_eq := h.memory.allocated_eq
    registers_within := h.registers_within
    cells_within := h.memory.cells_within
    slots_within := fun id => h.memory.slots_within (id - 1)
    releases_eq := h.memory.releases_eq
    length_givenBack := h.memory.length_givenBack
    nodup_givenBack := h.memory.nodup_givenBack
    mem_givenBack_iff := fun id => by
      rw [h.memory.mem_givenBack_iff, ← Memory.object_eq]
      refine and_congr_right fun hpos => ⟨fun hr => ⟨?_, hr⟩, fun hr => hr.2⟩
      have hlt := Memory.lt_of_isReleased hr
      omega
    unowned := fun id hid => h.memory.unowned _ (hreleased id hid)
    unowned_next := fun id => h.next
    load_givenBack := fun id hid slot => by
      obtain ⟨f, hf, hcode⟩ := useAfterRelease_of_isReleased s.memory slot (hreleased id hid)
      exact ⟨f, by rw [Memory.load, hf]; rfl, hcode⟩
    store_givenBack := fun id hid slot v => by
      obtain ⟨f, hf, hcode⟩ := useAfterRelease_of_isReleased s.memory slot (hreleased id hid)
      exact ⟨f, by rw [Memory.store, Memory.checkStore, hf]; rfl, hcode⟩
    checkBalanced_iff := by
      rw [Memory.checkBalanced_eq_ok_iff, h.memory.releases_eq]
      exact eq_comm }

/-- What the heap tells about a run is right at any time, whatever the code does: objects are numbered as they are
allocated, an object is given back at most once and only without owners, and it stays as it is from then on. There
are no objects yet when a run starts, so its arguments point to none. -/
theorem run_instrumented (c : Config) (name : String) (args : List Value) (hc : c.IsPlain)
    (hargs : ∀ v ∈ args, v.object? = none) :
    (∃ hs, c.Reaches name args hs (run c name args).2) ∧
    ∀ hs s, c.Reaches name args hs s → Instrumented c hs s ∧
      ∀ hs' s', Evolves c s hs' s' → Instrumented c (hs ++ hs') s' ∧ s.memory.Ages s'.memory ∧
        ∀ id ∈ c.givenBack hs, s'.memory.object id = s.memory.object id := by
  refine ⟨?_, fun hs s h => ?_⟩
  · rcases passes_or_comes c name args with ⟨hs, h⟩ | ⟨hs, h⟩
    · exact ⟨hs, .inl h⟩
    · exact ⟨hs, .inr ⟨_, h⟩⟩
  · have haccounted := h.accounted hc hargs
    refine ⟨haccounted.instrumented, fun hs' s' hevolves => ?_⟩
    obtain ⟨haccounted', hages⟩ := hevolves.follows hc haccounted
    exact ⟨haccounted'.instrumented, hages,
      fun id hid => hages.nth_eq _ ((haccounted.memory.mem_givenBack_iff id).1 hid).2⟩

/-- A function that allocates two objects, gives back the second one and reads it then. -/
def reading : Config where
  module := { functions := #[
    { name := "main", sig := { params := [], ret := Scalar.void }, isDefined := true
      registers := #[Scalar.ptr, Scalar.ptr, Scalar.ptr, Scalar.void, Scalar.i64]
      blocks := #[{ name := "entry", lines := #[
        ⟨some 0, .call { params := [Scalar.ptr, Scalar.i64], ret := Scalar.ptr } (.func "allocate")
        [.null, .int .i64 16]⟩,
        ⟨some 1, .call { params := [Scalar.ptr, Scalar.i64], ret := Scalar.ptr } (.func "allocate")
        [.null, .int .i64 16]⟩,
        ⟨some 2, .fieldAddr { name := "pair", fields := [] } (.reg 1) 1⟩,
        ⟨some 3, .call { params := [Scalar.ptr, Scalar.ptr], ret := Scalar.void } (.func "release")
        [.null, .reg 1]⟩,
        ⟨some 4, .load Scalar.i64 (.reg 2)⟩,
        ⟨none, .ret none⟩] }] },
    { name := "allocate", sig := { params := [Scalar.ptr, Scalar.i64], ret := Scalar.ptr } },
    { name := "release", sig := { params := [Scalar.ptr, Scalar.ptr], ret := Scalar.void } }] }
  hosts := allocatorHosts "" ""
  limit := 0

/-- The two objects have the numbers one and two, the second one is given back, and reading it fails. -/
theorem run_instrumented_of_reading : reading.IsPlain ∧ (∀ v ∈ ([] : List Value), v.object? = none) ∧
    ∃ hs s, reading.Reaches "main" [] hs s ∧ reading.allocated hs = [.ptr (.object 1), .ptr (.object 2)] ∧
      reading.givenBack hs = [2] ∧ s.memory.checkBalanced ≠ .ok () ∧
      ∃ f, run reading "main" [] = (.failure f, s) ∧ f.code = .useAfterRelease := by
  have hplain : reading.IsPlain := fun name host h => by
    obtain ⟨l₁, l₂, hhosts, -⟩ := List.lookup_eq_some_iff.1 h
    have hmem : (name, host) ∈ reading.hosts := hhosts ▸ List.mem_append_right l₁ List.mem_cons_self
    obtain h | h | h := List.mem_cons.1 hmem |>.imp_right List.mem_cons.1
    · cases h
      exact .inr (.inl rfl)
    · cases h
      exact .inl rfl
    · cases h
  obtain ⟨⟨hs, hreaches⟩, hall⟩ := run_instrumented reading "main" [] hplain nofun
  obtain ⟨hinstrumented, -⟩ := hall hs _ hreaches
  have hallocs : (run reading "main" []).2.memory.allocs = 2 := by decide +kernel
  have hreleases : (run reading "main" []).2.memory.releases = 1 := by decide +kernel
  have hreleased : ((run reading "main" []).2.memory.object 2).isReleased = true := by decide +kernel
  have hfailure : (match (run reading "main" []).1 with
      | .failure f => f.code == .useAfterRelease
      | _ => false) = true := by decide +kernel
  refine ⟨hplain, nofun, hs, _, hreaches, ?_, ?_, ?_, ?_⟩
  · rw [hinstrumented.allocated_eq, hallocs]
    rfl
  · have hlength := hinstrumented.length_givenBack.trans hreleases
    have hmem := (hinstrumented.mem_givenBack_iff 2).2 ⟨by decide, Nat.le_of_eq hallocs.symm, hreleased⟩
    obtain ⟨id, hid⟩ := List.length_eq_one_iff.1 hlength
    rw [hid, List.mem_singleton] at hmem
    rw [hid, hmem]
  · rw [ne_eq, hinstrumented.checkBalanced_iff, hallocs, hreleases]
    decide
  · split at hfailure
    · rename_i f hf
      exact ⟨f, Prod.ext hf rfl, eq_of_beq hfailure⟩
    · cases hfailure

end

end TypedScript.Machine
