import TypedScript.Lower.Expr

/-!
# Lowering: statements, functions, programs

The body of the module becomes the entry function. Functions are lowered after it in the order in which they were
first needed, and the helpers that release objects come last, when all layouts are known.
-/

namespace TypedScript.Lower

open TypedScript.Ast TypedScript.Ir TypedScript.Layout

/-- Lowers an expression that is used at once. -/
def evaluate (inp : Input) : Evaluator := fun cur id => expr inp (id + 1) cur id

/-- Lowers a list of statements up to the first one that ends the block. Nothing after it can be reached. -/
def stmtsWith (lowerStmt : Nat → LowerM Unit) : List Nat → LowerM Unit
  | [] => pure ()
  | id :: rest => do
    if ← isEnded then return
    lowerStmt id
    stmtsWith lowerStmt rest

/-- The declaration of a variable. -/
def varDecl (inp : Input) (cur id init : Nat) : LowerM Unit := do
  let span := inp.tree.span id
  let ref ← ofScope ((← get).chain.lookupDecl cur id (inp.tree.name id) span)
  let inner ← openTransient cur
  let h ← evaluate inp inner init
  let v ← h.toOperand inp inner
  let addr ← locate span (bindingAddr cur ref)
  storeOwned addr ref.binding.rep v
  emitDeferred inner

/-- The condition of a branch. What its evaluation made is released before the branch. -/
def condition (inp : Input) (cur id : Nat) : LowerM Operand := do
  let inner ← openTransient cur
  let h ← evaluate inp inner id
  let v ← h.toOperand inp inner
  emitDeferred inner
  return v

/-- Goes to a block, if the one at hand is not ended. -/
def fallThrough (block : Nat) : LowerM Unit := do
  if !(← isEnded) then br block

/-- Lowers a statement. Values made on the way live in a scope that ends with the statement. -/
def stmt (inp : Input) : Nat → Nat → Nat → LowerM Unit
  | 0, _, id => unsupported inp id "not a statement"
  | depth + 1, cur, id => do
    match inp.tree.form? id with
    | some (.funcDecl ..) | some (.declareFunc ..) | some (.typeAlias ..) => pure ()
    | some (.varDecl _ _ _ init) => varDecl inp cur id init
    | some (.exprStmt e) =>
      let inner ← openTransient cur
      let _ ← evaluate inp inner e
      emitDeferred inner
    | some (.ret value) =>
      let inner ← openTransient cur
      let v ← match value with
        | none => pure .absent
        | some e => (← evaluate inp inner e).toOperand inp inner
      emitReturn inner v (← get).result
    | some (.block body) =>
      let child ← openChild cur id ((← get).chain.function cur)
      enterContainer inp child id
      stmtsWith (stmt inp depth child) body
      if !(← isEnded) then emitDeferred child
    | some (.ifElse cond thenBranch elseBranch) =>
      let c ← condition inp cur cond
      let thenBlock ← newBlock "if.then"
      let join ← newBlock "if.end"
      let elseBlock ← if elseBranch.isSome then newBlock "if.else" else pure join
      condBr c thenBlock elseBlock
      setInsert thenBlock
      stmt inp depth cur thenBranch
      fallThrough join
      if let some e := elseBranch then
        setInsert elseBlock
        stmt inp depth cur e
        fallThrough join
      setInsert join
    | some (.whileLoop cond body) =>
      let head ← newBlock "while.head"
      let loop ← newBlock "while.body"
      let exit ← newBlock "while.end"
      br head
      setInsert head
      let c ← condition inp cur cond
      condBr c loop exit
      setInsert loop
      stmt inp depth cur body
      fallThrough head
      setInsert exit
    | _ => unsupported inp id "not a statement"

/-- Lowers statements that stand in a function or at module level. -/
def stmts (inp : Input) (cur : Nat) (body : List Nat) : LowerM Unit :=
  stmtsWith (fun id => stmt inp (id + 1) cur id) body

/-- Lowers the module's own statements into the entry function. -/
def lowerEntry (inp : Input) : LowerM Unit := do
  let t := inp.tree
  let entry := inp.options.entry
  declareFunc entry ⟨Scalar.void, []⟩
  let _ ← defineFunc entry
  modify fun s => { s with env := .null, result := .void, functions := s.functions ++ [⟨entry, t.root, true⟩] }
  let root ← modifyGet fun s => let (chain, n) := s.chain.openRoot t.root; (n, { s with chain })
  enterContainer inp root t.root
  stmts inp root (t.children t.root)
  if !(← isEnded) then
    emitDeferred root
    ret .absent

/-- Adds a property to what is told about the function being lowered. -/
def noteAttribute (key value : String) : LowerM Unit :=
  modify fun s => { s with
    records := s.records.modify (s.records.length - 1) fun r =>
      { r with attributes := r.attributes ++ [(key, value)] } }

/-- The text of a layout with its fields: its name and theirs. -/
def layoutFields (d : Descriptor) : String :=
  d.name ++ "\x7b" ++ ",".intercalate (d.fields.map (·.name)) ++ "\x7d"

/-- Stores the parameters of a function at their places. The arguments belong to the function and are released
when it is left. -/
def storeParams (inp : Input) (root count : Nat) (params : List Nat) : LowerM Unit :=
  params.zipIdx.forM fun (param, i) => do
    let span := inp.tree.span param
    let ref ← ofScope ((← get).chain.lookupDecl root param (inp.tree.name param) span)
    let addr ← locate span (bindingAddr root ref)
    if i + 1 ≥ count then throw .missingParameter
    let incoming := Operand.reg (i + 1)
    let rep := ref.binding.rep
    storeOwned addr rep incoming
    if rep.isCounted then defer root ⟨.value, incoming, rep⟩

/-- Lowers the body of a function. Its scope lies inside the scope that declares it. -/
def lowerFunction (inp : Input) (p : Pending) : LowerM Unit := do
  let t := inp.tree
  modify fun s => { s with records := s.records ++ [{ name := p.code }] }
  let (_, result, _) ← signature inp (typeOf inp p.node) (t.span p.node)
  let count ← defineFunc p.code
  let isPure := inp.analysis.isPure p.node
  modify fun s => { s with env := .reg 0, result, functions := s.functions ++ [⟨p.code, p.node, isPure⟩] }
  noteAttribute "pure" (toString isPure)
  let root ← openChild p.scope p.node p.node
  enterContainer inp root p.node
  if let some d := (← scopeNode root).layout then noteAttribute "scope" (layoutFields d)
  let form := (t.form? p.node).getD .null
  storeParams inp root count form.params
  let body := form.body?.getD 0
  match t.form? body with
  | some (.block list) => stmts inp root list
  | _ =>
    let inner ← openTransient root
    let h ← evaluate inp inner body
    if result = .void then emitDeferred inner
    else emitReturn inner (← h.toOperand inp inner) result
  if !(← isEnded) then
    emitDeferred root
    ret (zero result)

/-- Lowers waiting functions until none is left. Each function waits at most once, so their number bounds the
rounds. -/
def lowerQueue (inp : Input) : Nat → LowerM Unit
  | 0 => pure ()
  | fuel + 1 => do
    match (← get).queue with
    | [] => pure ()
    | p :: rest =>
      modify fun s => { s with queue := rest }
      lowerFunction inp p
      lowerQueue inp fuel

/-- The symbols that a declared function must not have. -/
def reservedNames (o : Options) : List String := [o.entry, o.allocate, o.release] ++ helperNames

/-- Refuses declared functions whose names are taken. -/
def checkNames (inp : Input) : LowerM Unit := do
  let clash := inp.tree.reachedOutsideTypes.find? fun id =>
    match inp.tree.form? id with
    | some (.declareFunc name ..) => (reservedNames inp.options).contains name
    | _ => false
  if let some id := clash then
    unsupported inp id ("extern " ++ Text.quote (inp.tree.name id) ++
      " collides with a generated or runtime symbol")

/-- Lowers a whole program. -/
def lowerProgram (inp : Input) : LowerM Unit := do
  checkNames inp
  declareRuntime inp
  lowerEntry inp
  lowerQueue inp (inp.tree.size + 1)
  defineRuntime inp

/-- The outcome of lowering: what was commanded, and the error that ended it early, if any. -/
structure Lowered where
  error : Option Error
  state : State

/-- Lowers a program for a target. -/
def lower (inp : Input) (target : Target) : Lowered :=
  let (r, state) := (lowerProgram inp).run.run { registry := .ofTarget target }
  match r with
  | .ok () => ⟨none, state⟩
  | .error e => ⟨some e, state⟩

end TypedScript.Lower
