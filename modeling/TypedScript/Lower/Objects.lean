import TypedScript.Lower.Basic

/-!
# Lowering: objects

Objects are made by the host's allocator and given back through its release hook. Four helper functions keep the
counts: one pair for pointers to objects, which may be null, and one pair for function values, of which only
closures are counted.
-/

namespace TypedScript.Lower

open TypedScript.Ir TypedScript.Layout

def retainName : String := "__scriptc_retain"
def releaseName : String := "__scriptc_release"
def fnRetainName : String := "__scriptc_fn_retain"
def fnReleaseName : String := "__scriptc_fn_release"

/-- The names of the helper functions. -/
def helperNames : List String := [retainName, releaseName, fnRetainName, fnReleaseName]

def allocateSig : Sig := ⟨Scalar.ptr, [Scalar.ptr, Scalar.i64]⟩

def helperSig : Sig := ⟨Scalar.void, [Scalar.ptr, Scalar.ptr]⟩

/-- What all objects start with. -/
def headerStruct : Struct := ⟨"$header", [Scalar.i32, Scalar.i32]⟩

/-- Declares what every module uses. -/
def declareRuntime (inp : Input) : LowerM Unit := do
  emit (.declareStruct headerStruct)
  declareFunc inp.options.allocate allocateSig
  declareFunc inp.options.release helperSig
  helperNames.forM (declareFunc · helperSig)

/-- The struct of a layout. -/
def structOf (d : Descriptor) : Struct :=
  ⟨d.name, Scalar.i32 :: Scalar.i32 :: d.fields.map fun f => (irType f.rep : Ir.Ty)⟩

/-- The struct of a layout, which is declared when it is first used. -/
def useStruct (d : Descriptor) : LowerM Struct := do
  if !(← get).structs.contains d.tag then
    emit (.declareStruct (structOf d))
    modify fun s => { s with structs := d.tag :: s.structs }
  return structOf d

def slotAddr (s : Struct) (base : Operand) (slot : Nat) : LowerM Operand := emitValue (.fieldAddr s base slot)

def fieldAddr (d : Descriptor) (base : Operand) (f : Field) : LowerM Operand := do
  slotAddr (← useStruct d) base f.slot

def loadField (d : Descriptor) (base : Operand) (f : Field) : LowerM Operand := do
  load (irType f.rep) (← fieldAddr d base f)

/-- A new object with one owner. Its pointers are null. -/
def construct (inp : Input) (d : Descriptor) : LowerM Operand := do
  let s ← useStruct d
  let obj ← callDirect allocateSig (.func inp.options.allocate) [.null, .int .i64 d.size.toInt]
  store (← slotAddr s obj tagSlot) (.int .i32 d.tag)
  store (← slotAddr s obj countSlot) (.int .i32 1)
  (d.fields.filter (·.rep.isPointer)).forM fun f => do store (← slotAddr s obj f.slot) .null
  modify fun st => { st with objects := st.objects + 1 }
  return obj

/-- Calls a helper on a value. -/
def callHelper (name : String) (v : Operand) : LowerM Unit := do
  let _ ← callDirect helperSig (.func name) [.null, v]

/-- Adds an owner to a value, if it is counted. -/
def retain (r : Rep) (v : Operand) : LowerM Unit :=
  match r with
  | .object .. | .scope => callHelper retainName v
  | .func _ => callHelper fnRetainName v
  | _ => pure ()

/-- Takes an owner from a value, if it is counted. -/
def release (r : Rep) (v : Operand) : LowerM Unit :=
  match r with
  | .object .. | .scope => callHelper releaseName v
  | .func _ => callHelper fnReleaseName v
  | _ => pure ()

/-- Stores a value at a place that owns what it holds: the new value is retained before the old one is released. -/
def storeOwned (addr : Operand) (r : Rep) (v : Operand) : LowerM Unit := do
  if r.isCounted then
    retain r v
    let old ← load Scalar.ptr addr
    store addr v
    release r old
  else store addr v

/-- Emits the releases that are due when a scope is left. They stay registered, for other ways out. -/
def emitDeferred (scope : Nat) : LowerM Unit := do
  ((← get).chain.get scope).deferred.forM fun d => do
    match d.kind with
    | .value => release d.rep d.operand
    | .slot => release d.rep (← load Scalar.ptr d.operand)
    | .field =>
      let old ← load Scalar.ptr d.operand
      store d.operand .null
      release d.rep old

/-- The second parameter of a helper. -/
def helperParam : Operand := .reg 1

/-- Compares the tag of what is pointed to. -/
def testTag (p : Operand) (tag : Int) : LowerM Operand := do
  let word ← load Scalar.i32 (← slotAddr headerStruct p tagSlot)
  compare .eq word (.int .i32 tag)

/-- Defines the helper that increments the count of an object. -/
def defineRetain : LowerM Unit := do
  let _ ← defineFunc retainName
  let inc ← newBlock "inc"
  let done ← newBlock "done"
  condBr (← compare .eq helperParam .null) done inc
  setInsert inc
  let count ← slotAddr headerStruct helperParam countSlot
  store count (← binary .add (← load Scalar.i32 count) (.int .i32 1))
  br done
  setInsert done
  ret .absent

/-- Defines a helper for function values, which passes closures on to the helper `inner`. -/
def defineFnHelper (name inner : String) : LowerM Unit := do
  let _ ← defineFunc name
  let check ← newBlock "check"
  let call ← newBlock "closure"
  let done ← newBlock "done"
  condBr (← compare .eq helperParam .null) done check
  setInsert check
  condBr (← testTag helperParam closureTag) call done
  setInsert call
  callHelper inner helperParam
  br done
  setInsert done
  ret .absent

/-- Emits, for a layout with counted fields, the test of the tag and the releases of these fields. -/
def emitDrop (tag : Operand) (free : Nat) (d : Descriptor) : LowerM Unit := do
  let matched ← newBlock ("drop." ++ d.name)
  let next ← newBlock "next"
  condBr (← compare .eq tag (.int .i32 d.tag)) matched next
  setInsert matched
  d.countedFields.forM fun f => do release f.rep (← loadField d helperParam f)
  br free
  setInsert next

/-- Defines the helper that decrements the count of an object. When it drops to zero the counted fields, which the
tag tells, are released and the object is given back. -/
def defineRelease (inp : Input) : LowerM Unit := do
  let _ ← defineFunc releaseName
  let dec ← newBlock "dec"
  let drop ← newBlock "drop"
  let done ← newBlock "done"
  condBr (← compare .eq helperParam .null) done dec
  setInsert dec
  let addr ← slotAddr headerStruct helperParam countSlot
  let count ← binary .sub (← load Scalar.i32 addr) (.int .i32 1)
  store addr count
  condBr (← compare .le count (.int .i32 0)) drop done
  setInsert drop
  let tag ← load Scalar.i32 (← slotAddr headerStruct helperParam tagSlot)
  let free ← newBlock "free"
  ((← get).registry.all.filter fun d => !d.countedFields.isEmpty).forM (emitDrop tag free)
  br free
  setInsert free
  let _ ← callDirect helperSig (.func inp.options.release) [.null, helperParam]
  br done
  setInsert done
  ret .absent

/-- Defines the helpers; all layouts have to be known by then. -/
def defineRuntime (inp : Input) : LowerM Unit := do
  defineRetain
  defineFnHelper fnRetainName retainName
  defineFnHelper fnReleaseName releaseName
  defineRelease inp

end TypedScript.Lower
