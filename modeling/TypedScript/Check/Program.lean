import TypedScript.Check.Types

/-!
# Checking: expressions, statements and functions

An expression is checked against the type its context expects, which decides the type of numbers, of null, of
objects and of the parameters of arrow functions. A function without a written result gets the type of what its
body returns; its body is then checked when its type is first needed, and only once.

The recursion is bounded by a depth: it goes down the tree, or into a function whose body was not entered before.
-/

namespace TypedScript.Check

open TypedScript.Ast TypedScript.Binding

/-- The types of the parameters of a function: written, or taken in order from the expected function type. `none`
if one has no type. -/
def paramTypes (env : Env) (expected : Option Ty) : List Nat → Nat → CheckM (Option (List Nat))
  | [], _ => return some []
  | p :: rest, i => do
    let t := env.tree
    let type ← match (t.form? p).bind (·.type?) with
      | some written => resolveType env written
      | none =>
        match expected with
        | some (.func params _) =>
          match params[i]? with
          | some type => pure type
          | none =>
            report (t.span p) (.untypedParam (t.name p))
            pure 0
        | _ =>
          report (t.span p) (.untypedParam (t.name p))
          pure 0
    if type ≠ 0 then let _ ← record p type
    let others ← paramTypes env expected rest (i + 1)
    return if type = 0 then none else others.map (type :: ·)

/-- Changes the function around the place being checked. -/
def modifyFrame (f : Frame → Frame) : CheckM Unit :=
  modify fun s => match s.frames with
    | top :: outer => { s with frames := f top :: outer }
    | [] => s

/-- Reports the properties of the expected type that an object lacks, and tells whether there are any. -/
def reportMissing (span : Source.Span) (present : List String) (props : List (String × Nat)) : CheckM Bool := do
  let missing := props.filter fun p => !present.contains p.1
  missing.forM fun p => report span (.missingProperty p.1)
  return !missing.isEmpty

mutual

/-- Finds and records the type of an expression where `want` is expected; zero expects nothing. -/
def expr (env : Env) : Nat → Nat → Nat → CheckM Nat
  | 0, _, _ => return 0
  | depth + 1, id, want => do
    let type ← exprType env depth id want
    record id type

/-- The type of an expression by its form. -/
def exprType (env : Env) : Nat → Nat → Nat → CheckM Nat
  | 0, _, _ => return 0
  | depth + 1, id, want => do
    let t := env.tree
    match t.form? id with
    | some (.number _) =>
      match ← resolved? want with
      | some (.int _) => return want
      | _ => return Ty.numberId
    | some (.string _) => return Ty.stringId
    | some (.bool _) => return Ty.boolId
    | some .null =>
      match ← resolved? want with
      | some expected => return if expected.isNullable then want else Ty.nullId
      | none => return Ty.nullId
    | some .this => return Ty.voidId
    | some (.ident _) =>
      match env.table.decl? id with
      | none => return 0
      | some d =>
        match symbolKind t d with
        | .function | .foreign => signature env depth d
        | _ => typeOf d
    | some (.object props) =>
      if props.isEmpty then
        report (t.span id) .emptyObject
        return 0
      match ← resolved? want with
      | some (.object expected) =>
        let fits ← expectedProps env depth want props
        let missing ← reportMissing (t.span id) (props.map t.name) expected
        return if fits && !missing then want else 0
      | _ =>
        match ← inferredProps env depth props with
        | some props => internObject props
        | none => return 0
    | some (.member object name) =>
      let obj ← expr env depth object 0
      if obj = 0 then return 0
      match ← resolved? obj with
      | some (.object _) =>
        match (← get).types.prop? obj name with
        | some p => return p.2
        | none =>
          report (t.span id) (.unknownProperty name (← typeText obj))
          return 0
      | _ =>
        report (t.span id) (.noProperties (← typeText obj))
        return 0
    | some (.call callee args) =>
      let f ← expr env depth callee 0
      if f = 0 then
        args.forM fun a => do let _ ← expr env depth a 0
        return 0
      match ← resolved? f with
      | some (.func params result) =>
        if args.length ≠ params.length then
          report (t.span id) (.argumentCount params.length args.length)
        arguments env depth args params
        return result
      | _ =>
        report (t.span callee) (.notCallable (← typeText f))
        return 0
    | some (.unary .negate x) =>
      let type ← expr env depth x want
      if type ≠ 0 && !((← resolved? type).elim false Ty.isNumeric) then
        report (t.span id) .negatedNonNumber
        return 0
      return type
    | some (.unary .not x) =>
      boolean env depth x
      return Ty.boolId
    | some (.binary op x y) =>
      if op.isLogical then
        boolean env depth x
        boolean env depth y
        return Ty.boolId
      else binary env depth id op x y want
    | some (.assign target value) =>
      match t.form? target, (env.table.decl? target).map (symbolKind t) with
      | some (.ident name), some .constBinding => report (t.span target) (.assignToConstant name)
      | some (.ident name), some .function | some (.ident name), some .foreign =>
        report (t.span target) (.assignToFunction name)
      | _, _ => pure ()
      let want ← expr env depth target 0
      let got ← expr env depth value want
      expect (t.span value) want got
      return want
    | some (.arrowFunc params _ _) =>
      let expected ← resolved? want
      match ← paramTypes env expected params 0 with
      | none => return 0
      | some types =>
        let result := match expected with
          | some (.func _ result) => result
          | _ => 0
        let result ← body env depth id result
        if result = 0 then return 0 else internFunc types result
    | some f =>
      report (t.span id) (.notAnExpression f.kindName)
      return 0
    | none => return 0

/-- Checks an expression that has to be a boolean. -/
def boolean (env : Env) : Nat → Nat → CheckM Unit
  | 0, _ => pure ()
  | depth + 1, id => do
    let type ← expr env depth id Ty.boolId
    expect (env.tree.span id) Ty.boolId type

/-- Checks arguments against the parameters they are passed for. -/
def arguments (env : Env) : Nat → List Nat → List Nat → CheckM Unit
  | 0, _, _ => pure ()
  | _, [], _ => pure ()
  | depth + 1, a :: args, params => do
    let want := params.headD 0
    let got ← expr env depth a want
    expect (env.tree.span a) want got
    arguments env depth args params.tail

/-- Checks properties against an expected object type, and tells whether they all fit. -/
def expectedProps (env : Env) : Nat → Nat → List Nat → CheckM Bool
  | 0, _, _ => return true
  | _, _, [] => return true
  | depth + 1, want, p :: rest => do
    let t := env.tree
    match t.form? p with
    | some (.property name value) =>
      match (← get).types.prop? want name with
      | none =>
        report (t.span p) (.extraProperty name (← typeText want))
        let _ ← expr env depth value 0
        let _ ← expectedProps env depth want rest
        return false
      | some (_, type) =>
        let got ← expr env depth value type
        let _ ← record p type
        let fits := got == 0 || (← assignable type got)
        if !fits then reportMismatch (t.span value) type got
        return (← expectedProps env depth want rest) && fits
    | _ => expectedProps env depth want rest

/-- The properties of an object of which nothing is expected; `none` if one has no type. -/
def inferredProps (env : Env) : Nat → List Nat → CheckM (Option (List (String × Nat)))
  | 0, _ => return some []
  | _, [] => return some []
  | depth + 1, p :: rest => do
    let t := env.tree
    match t.form? p with
    | some (.property name value) =>
      let type ← expr env depth value 0
      if type = 0 then return none
      if (← resolved? type) = some .null then
        report (t.span p) (.untypedNullProperty name)
        return none
      let _ ← record p type
      match ← inferredProps env depth rest with
      | some props => return some ((name, type) :: props)
      | none => return none
    | _ => inferredProps env depth rest

/-- An operator on two operands of one type, other than the logical ones. A number on the left takes the integer
type of what is on the right. -/
def binary (env : Env) : Nat → Nat → BinaryOp → Nat → Nat → Nat → CheckM Nat
  | 0, _, _, _, _, _ => return 0
  | depth + 1, id, op, lhs, rhs, want => do
    let t := env.tree
    let x ← expr env depth lhs (if op.isArithmetic then want else 0)
    if x = 0 then
      let _ ← expr env depth rhs 0
      return 0
    let y ← expr env depth rhs x
    if y = 0 then return 0
    let x ← match t.form? lhs, ← resolved? y with
      | some (.number _), some (.int _) => expr env depth lhs y
      | _, _ => pure x
    let tx ← resolved? x
    if op.isEquality then
      if !(← assignable x y) && !(← assignable y x) then
        report (t.span id) (.incomparable (← typeText x) (← typeText y))
        return 0
      if tx = some .string then
        report (t.span id) .stringComparison
        return 0
      return Ty.boolId
    if !(tx.elim false Ty.isNumeric) || !((← get).types.identical x y) then
      report (t.span id) (.nonNumericOperands op.token.name (← typeText x) (← typeText y))
      return 0
    return if op.isArithmetic then x else Ty.boolId

/-- Checks a statement. -/
def stmt (env : Env) : Nat → Nat → CheckM Unit
  | 0, _ => pure ()
  | depth + 1, id => do
    let t := env.tree
    match t.form? id with
    | some (.declareFunc ..) => let _ ← signature env depth id
    | some (.funcDecl ..) =>
      let _ ← signature env depth id
      let _ ← body env depth id 0
    | some (.varDecl _ _ written init) =>
      let want ← resolveType? env written
      let got ← expr env depth init want
      if want ≠ 0 then
        expect (t.span init) want got
        let _ ← record id want
      else if (← resolved? got) = some .null then
        report (t.span id) .untypedNullVariable
      else
        let _ ← record id got
    | some (.ret value) => returnStmt env depth id value
    | some (.ifElse cond thenBranch elseBranch) =>
      boolean env depth cond
      stmt env depth thenBranch
      elseBranch.toList.forM (stmt env depth)
    | some (.whileLoop cond inner) =>
      boolean env depth cond
      stmt env depth inner
    | some (.block stmts) => stmts.forM (stmt env depth)
    | some (.exprStmt x) => let _ ← expr env depth x 0
    | _ => pure ()

/-- Checks a return against the result of the function around it, or lets it decide the result. -/
def returnStmt (env : Env) : Nat → Nat → Option Nat → CheckM Unit
  | 0, _, _ => pure ()
  | depth + 1, id, value => do
    let t := env.tree
    match (← get).frames with
    | [] => report (t.span id) .returnOutsideFunction
    | frame :: _ =>
      match value with
      | none =>
        if frame.result ≠ 0 ∧ frame.result ≠ Ty.voidId then
          report (t.span id) (.missingReturnValue (← typeText frame.result))
        if frame.result = 0 ∧ frame.inferred = 0 then modifyFrame ({ · with inferred := Ty.voidId })
      | some x =>
        if frame.result ≠ 0 then
          let got ← expr env depth x frame.result
          expect (t.span x) frame.result got
        else
          let got ← expr env depth x frame.inferred
          if frame.inferred = 0 then modifyFrame ({ · with inferred := got })
          else expect (t.span x) frame.inferred got

/-- The type of a declared function; zero if it has none. -/
def signature (env : Env) : Nat → Nat → CheckM Nat
  | 0, _ => return 0
  | depth + 1, id => do
    let t := env.tree
    match (← get).signatures.lookup id with
    | some type => return type
    | none =>
      let form := (t.form? id).getD .null
      match ← paramTypes env none form.params 0 with
      | none => return 0
      | some params =>
        let result ← match form.type? with
          | some written => resolveType env written
          | none => do
            if (← get).busy.contains id then
              report (t.span id) (.recursiveWithoutResult form.name)
              pure 0
            else body env depth id 0
        if result = 0 && (form.type?.isSome || (← get).busy.contains id) then return 0
        let type ← internFunc params result
        modify fun s => { s with signatures := (id, type) :: s.signatures }
        record id type

/-- Checks the body of a function, unless it has been entered before, and gives the result type. The result is the
written one, else the expected one, else what the body returns, else void. -/
def body (env : Env) : Nat → Nat → Nat → CheckM Nat
  | 0, _, _ => return 0
  | depth + 1, id, expected => do
    let t := env.tree
    if (← get).done.contains id then return ((← get).results.lookup id).getD 0
    modify fun s => { s with done := id :: s.done, busy := id :: s.busy }
    let form := (t.form? id).getD .null
    let result ← match form.type? with
      | some written => resolveType env written
      | none => pure expected
    modify fun s => { s with frames := { result } :: s.frames }
    let inner := form.body?.getD 0
    match t.form? inner with
    | some (.block stmts) => stmts.forM (stmt env depth)
    | _ =>
      let got ← expr env depth inner result
      if result = 0 then modifyFrame ({ · with inferred := got })
      else if result ≠ Ty.voidId then expect (t.span inner) result got
    let inferred := ((← get).frames.head?.map (·.inferred)).getD 0
    let result := if result ≠ 0 then result else if inferred ≠ 0 then inferred else Ty.voidId
    modify fun s => { s with frames := s.frames.tail, busy := s.busy.erase id, results := (id,
      result) :: s.results }
    return result

end

/-- How deep the recursion may go: the height of the tree for every function that can be entered. -/
def depthFor (t : Tree) : Nat := 8 * (t.size + 2) * (t.size + 2)

/-- What checking yields. -/
structure Checked where
  types : Ty.Interner
  /-- The type of every expression and declaration that has one. -/
  info : Std.TreeMap Nat Nat
  diagnostics : List Diagnostic

/-- The recorded type of a node; zero if it has none. -/
def Checked.typeOf (c : Checked) (id : Nat) : Nat := c.info.getD id 0

/-- Checks a tree whose names are bound, however many types there are. -/
def check (tree : Tree) (table : Table) : Checked :=
  let env : Env := ⟨tree, table⟩
  let act : CheckM Unit := do
    declareAliases env
    (tree.children tree.root).forM (stmt env (depthFor tree))
  let s := (act.run {}).2
  ⟨s.types, s.info, s.diagnostics⟩

/-- Checks a tree whose names are bound, which is refused if not all numbers of types are words. -/
def checkTree (tree : Tree) (table : Table) : Except Source.Overflow Checked :=
  let checked := check tree table
  if checked.types.types.size < Source.offsetLimit then .ok checked else .error .types

theorem checkTree_of_lt {tree : Tree} {table : Table}
    (h : (check tree table).types.types.size < Source.offsetLimit) :
    checkTree tree table = .ok (check tree table) := if_pos h

theorem checkTree_of_le {tree : Tree} {table : Table}
    (h : Source.offsetLimit ≤ (check tree table).types.types.size) :
    checkTree tree table = .error .types := if_neg (Nat.not_lt.2 h)

theorem checkTree_eq_ok {tree : Tree} {table : Table} {checked : Checked} (h : checkTree tree table = .ok checked) :
    (check tree table).types.types.size < Source.offsetLimit ∧ checked = check tree table := by
  unfold checkTree at h
  dsimp only at h
  split at h
  · exact ⟨‹_›, (Except.ok.inj h).symm⟩
  · cases h

end TypedScript.Check
