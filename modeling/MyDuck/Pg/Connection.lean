/-
MyDuck.Pg.Connection — the message loop of a Postgres connection
(`connection_handler.go`).

A message carries what the rest of the server made of it: how its query
was converted, whether the engine, a data loader or an in-place handler
failed. Everything the loop itself decides is computed: the flags of the
handlers, the two maps of statements and portals, the COPY state, the
recovery from errors and panics, and what is sent.

Pointers. `Parse` makes the `Closed` flag and the DuckDB statement of an
entry together and `Bind` copies them together, so both are numbered by
the `Parse` that made them; a field that is nil is `none`. A `Cell` is
what one `Parse` allocated, with the number of times `Close` was called
on its statement. `nilCalls` counts the method calls on nil pointers in
`deletePreparedStatement` and `deletePortal`; each of them panics.

`discardToSync` reads messages until a Sync, so in the model the loop is
`discarding` until the next Sync comes. Sending does not fail here: a
connection that cannot be written to is closed by its handler. The rows
of a result, and Terminate, are left out.
-/
import MyDuck.Base.Run

namespace MyDuck.Pg

/-! ## Statements and messages -/

/-- What `handleStatementOutsideEngine` makes of a statement. -/
inductive StatementKind where
  | deallocate (name : String)
  | discard
  | copyFromStdin
  | copyToStdout
  | inPlace
  /-- Passed on to the engine. -/
  | engine
  deriving DecidableEq, Repr

/-- A `ConvertedStatement`. -/
structure Statement where
  kind : StatementKind
  /-- `AST != nil`. -/
  hasAST : Bool := true
  /-- `strings.TrimSpace(String) == ""`. -/
  blank : Bool := false
  /-- The tag is SELECT. -/
  select : Bool := false
  /-- `returnsRow(Tag)`. -/
  returnsRow : Bool := false
  deriving DecidableEq, Repr

inductive QueryText where
  /-- `;`, or a command of psql or of a workbench. -/
  | answered (fails : Bool)
  /-- The statements, and whether each of them fails. -/
  | statements (ss : List (Statement × Bool))
  deriving DecidableEq, Repr

/-- How `Parse` ends for a query that is not empty. -/
inductive ParseOutcome where
  | fails
  | inPlace
  | prepared
  deriving DecidableEq, Repr

inductive CopyDataOutcome where
  | loaded
  /-- No loader was made. -/
  | failsEarly
  /-- The chunk could not be loaded. -/
  | failsLoading
  deriving DecidableEq, Repr

inductive FrontendMessage where
  | query (text : QueryText)
  | parse (name : String) (statement : Statement) (outcome : ParseOutcome)
  | describe (ofStatement : Bool) (name : String)
  | bind (portal statement : String) (fails : Bool)
  | execute (portal : String) (fails : Bool)
  | close (ofStatement : Bool) (name : String)
  | flush
  | sync
  | copyData (outcome : CopyDataOutcome)
  | copyDone (fails : Bool)
  | copyFail
  deriving DecidableEq, Repr

inductive BackendMessage where
  | readyForQuery
  | errorResponse
  | commandComplete
  | copyInResponse
  | parseComplete
  | bindComplete
  | closeComplete
  | parameterDescription
  | rowDescription
  | noData
  | emptyQueryResponse
  deriving DecidableEq, Repr

/-! ## The state of the handler -/

/-- What one `Parse` allocated. -/
structure Cell where
  /-- `ComPrepareParsed` made a statement. -/
  prepared : Bool := false
  /-- The value of the `Closed` flag. -/
  closed : Bool := false
  /-- How often `Close` was called on the statement. -/
  closes : Nat := 0
  deriving DecidableEq, Repr

structure PreparedStatementData where
  statement : Statement
  stmt : Option Nat := none
  closed : Option Nat := none
  deriving DecidableEq, Repr

structure PortalData where
  statement : Statement
  isEmptyQuery : Bool := false
  stmt : Option Nat := none
  closed : Option Nat := none
  deriving DecidableEq, Repr

structure CopyState where
  /-- `dataLoader != nil`. -/
  dataLoader : Bool := false
  /-- `copyErr != nil`. -/
  copyErr : Bool := false
  deriving DecidableEq, Repr

structure Conn where
  preparedStatements : String → Option PreparedStatementData := fun _ => none
  portals : String → Option PortalData := fun _ => none
  waitForSync : Bool := false
  copyFromStdinState : Option CopyState := none
  cells : Nat → Cell := fun _ => {}
  next : Nat := 0
  nilCalls : Nat := 0
  /-- The loop is in `discardToSync`. -/
  discarding : Bool := false
  sent : List BackendMessage := []

/-- How a handler ends. A panic is recovered with the state as it is. -/
inductive Flow where
  | ok (c : Conn)
  | error (c : Conn)
  | panic (c : Conn)

namespace Flow

def conn : Flow → Conn
  | .ok c => c
  | .error c => c
  | .panic c => c

@[simp] theorem conn_ok (c : Conn) : (ok c).conn = c := rfl

@[simp] theorem conn_error (c : Conn) : (error c).conn = c := rfl

@[simp] theorem conn_panic (c : Conn) : (panic c).conn = c := rfl

def andThen (flow : Flow) (f : Conn → Flow) : Flow :=
  match flow with
  | .ok c => f c
  | .error c => .error c
  | .panic c => .panic c

end Flow

namespace Conn

variable (c : Conn)

def send (m : BackendMessage) : Conn := { c with sent := c.sent ++ [m] }

/-- An answer with one message, or an error. -/
def reply (fails : Bool) (m : BackendMessage) : Flow := if fails then .error c else .ok (c.send m)

/-! ## Statements and portals -/

def nilCall : Conn := { c with nilCalls := c.nilCalls + 1 }

def onCell (k : Nat) (f : Cell → Cell) : Conn :=
  { c with cells := Function.update c.cells k (f (c.cells k)) }

/-- `if Closed.CompareAndSwap(false, true) { Stmt.Close() }`. -/
def release (closed stmt : Option Nat) : Flow :=
  match closed with
  | none => .panic c.nilCall
  | some k =>
    if (c.cells k).closed then .ok c
    else
      let c := c.onCell k fun cell => { cell with closed := true }
      match stmt with
      | none => .panic c.nilCall
      | some s => .ok (c.onCell s fun cell => { cell with closes := cell.closes + 1 })

def setStatement (name : String) (ps : Option PreparedStatementData) : Conn :=
  { c with preparedStatements := Function.update c.preparedStatements name ps }

def setPortal (name : String) (p : Option PortalData) : Conn :=
  { c with portals := Function.update c.portals name p }

def deletePreparedStatement (name : String) : Flow :=
  match c.preparedStatements name with
  | none => .ok c
  | some ps => (c.setStatement name none).release ps.closed ps.stmt

def deletePortal (name : String) : Flow :=
  match c.portals name with
  | none => .ok c
  | some p => (c.setPortal name none).release p.closed p.stmt

def deallocatePreparedStatement (name : String) : Flow :=
  match c.preparedStatements name with
  | none => .error c
  | some _ => (c.deletePreparedStatement name).andThen fun c => .ok (c.send .commandComplete)

/-! ## Running statements -/

/-- `handleStatementOutsideEngine`: `endOfMessages` and how it ends, for a
statement that is handled there. -/
def handleStatementOutsideEngine (s : Statement) (fails : Bool) : Option (Bool × Flow) :=
  match s.kind with
  | .deallocate name => some (true, c.deallocatePreparedStatement name)
  | .discard => some (true, .ok (c.send .commandComplete))
  | .copyFromStdin =>
    some (false, reply
      { c with copyFromStdinState := if fails then c.copyFromStdinState else some {} }
      fails .copyInResponse)
  | .copyToStdout => some (true, c.reply fails .commandComplete)
  | .inPlace => some (true, c.reply fails .commandComplete)
  | .engine => none

def handleStatement (s : Statement) (fails : Bool) : Bool × Flow :=
  (c.handleStatementOutsideEngine s fails).getD (true, c.reply fails .commandComplete)

/-- The loop over the statements; `endOfMessages` is that of the last one. -/
def handleStatements (c : Conn) (endOfMessages : Bool) : List (Statement × Bool) → Bool × Flow
  | [] => (endOfMessages, .ok c)
  | (s, fails) :: rest =>
    match c.handleStatement s fails with
    | (endOfMessages, .ok c) => handleStatements c endOfMessages rest
    | (_, .error c) => (true, .error c)
    | (_, .panic c) => (false, .panic c)

/-- A Query destroys the unnamed statement and the unnamed portal. -/
def dropUnnamed : Flow := (c.deletePreparedStatement "").andThen fun c => c.deletePortal ""

def handleQuery : QueryText → Bool × Flow
  | .answered fails => (true, c.reply fails .commandComplete)
  | .statements ss =>
    match c.dropUnnamed with
    | .ok c => c.handleStatements true ss
    | flow => (false, flow)

/-! ## The extended protocol -/

def awaitSync : Conn := { c with waitForSync := true }

def allocate (cell : Cell) : Conn :=
  { c with cells := Function.update c.cells c.next cell, next := c.next + 1 }

def handleParse (name : String) (s : Statement) (outcome : ParseOutcome) : Flow :=
  let c := c.awaitSync
  if !s.hasAST && s.blank then
    .ok ((c.setStatement name (some { statement := s })).send .parseComplete)
  else
    match outcome with
    | .fails => .error c
    | .inPlace =>
      .ok (((c.allocate {}).setStatement name
        (some { statement := s, closed := some c.next })).send .parseComplete)
    | .prepared =>
      .ok (((c.allocate { prepared := true }).setStatement name
        (some { statement := s, stmt := some c.next, closed := some c.next })).send .parseComplete)

def sendRows (returnsRow : Bool) : Conn := c.send (if returnsRow then .rowDescription else .noData)

def handleDescribe (ofStatement : Bool) (name : String) : Flow :=
  let c := c.awaitSync
  if ofStatement then
    match c.preparedStatements name with
    | none => .error c
    | some ps =>
      .ok ((c.send .parameterDescription).sendRows (ps.stmt.isSome && ps.statement.returnsRow))
  else
    match c.portals name with
    | none => .error c
    | some p => if p.stmt.isSome then .ok (c.sendRows p.statement.returnsRow) else .ok c

def handleBind (portal statement : String) (fails : Bool) : Flow :=
  let c := c.awaitSync
  match c.preparedStatements statement with
  | none => .error c
  | some ps =>
    if ps.stmt = none then
      .ok ((c.setPortal portal
        (some { statement := ps.statement, isEmptyQuery := ps.statement.blank })).send
        .bindComplete)
    else if !ps.statement.hasAST then
      .ok ((c.setPortal portal
        (some { statement := ps.statement, isEmptyQuery := true })).send .bindComplete)
    else if fails then .error c
    else
      .ok ((c.setPortal portal
        (some { statement := ps.statement, stmt := ps.stmt, closed := ps.closed })).send
        .bindComplete)

def handleExecute (portal : String) (fails : Bool) : Flow :=
  let c := c.awaitSync
  match c.portals portal with
  | none => .error c
  | some p =>
    if p.isEmptyQuery then .ok ((c.send .noData).send .emptyQueryResponse)
    else if !p.statement.select || p.stmt.isNone then
      match c.handleStatementOutsideEngine p.statement fails with
      | some (_, flow) => flow
      | none => c.reply fails .commandComplete
    else c.reply fails .commandComplete

def handleClose (ofStatement : Bool) (name : String) : Flow :=
  (if ofStatement then c.deletePreparedStatement name else c.deletePortal name).andThen
    fun c => .ok (c.send .closeComplete)

/-! ## COPY FROM STDIN -/

def setCopy (state : CopyState) : Conn := { c with copyFromStdinState := some state }

/-- The error of a chunk is kept in the COPY state, which is a nil pointer
when there is no COPY. -/
def handleCopyData (outcome : CopyDataOutcome) : Flow :=
  match c.copyFromStdinState with
  | none => .panic c
  | some state =>
    match outcome with
    | .loaded => .ok (c.setCopy { state with dataLoader := true })
    | .failsEarly => .error (c.setCopy { state with copyErr := true })
    | .failsLoading => .error (c.setCopy { dataLoader := true, copyErr := true })

/-- A chunk that failed has ended the COPY already. -/
def handleCopyDone (fails : Bool) : Bool × Flow :=
  match c.copyFromStdinState with
  | none => (true, .error c)
  | some state =>
    if state.copyErr then (false, .ok c)
    else if !state.dataLoader then (true, .error c)
    else if fails then (false, .error c)
    else (true, .ok (send { c with copyFromStdinState := none } .commandComplete))

def handleCopyFail : Bool × Flow :=
  match c.copyFromStdinState with
  | none => (true, .error c)
  | some state =>
    if !state.dataLoader then (true, .error c)
    else (true, .ok { c with copyFromStdinState := none })

/-! ## The loop -/

/-- `endOfMessages` and how the handler of the message ends. Flush is not
known to the loop. -/
def handleMessage : FrontendMessage → Bool × Flow
  | .query text => c.handleQuery text
  | .parse name statement outcome => (false, c.handleParse name statement outcome)
  | .describe ofStatement name => (false, c.handleDescribe ofStatement name)
  | .bind portal statement fails => (false, c.handleBind portal statement fails)
  | .execute portal fails => (false, c.handleExecute portal fails)
  | .close ofStatement name => (false, c.handleClose ofStatement name)
  | .flush => (true, .error c)
  | .sync => (true, .ok { c with waitForSync := false })
  | .copyData outcome => (false, c.handleCopyData outcome)
  | .copyDone fails => c.handleCopyDone fails
  | .copyFail => c.handleCopyFail

/-- `endOfMessages(nil)`. -/
def ready : Conn := c.send .readyForQuery

/-- An error or a panic: inside a batch of the extended protocol the rest
of the batch is read and dropped first. -/
def recover (endOfMessages : Bool) : Conn :=
  if !endOfMessages && c.waitForSync then { c with discarding := true }
  else (c.send .errorResponse).ready

def receiveMessage (m : FrontendMessage) : Conn :=
  if c.discarding then
    if m = .sync then (send { c with discarding := false } .errorResponse).ready else c
  else
    match c.handleMessage m with
    | (endOfMessages, .ok c) => if endOfMessages then c.ready else c
    | (endOfMessages, .error c) => c.recover endOfMessages
    | (_, .panic c) => c.recover false

end Conn

end MyDuck.Pg
