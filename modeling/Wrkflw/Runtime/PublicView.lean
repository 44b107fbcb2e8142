import Wrkflw.Engine.State

/-!
# The public projection of an instance

`PublicState` (`runtime/view/public.go`) with the disclosure categories of `authz/disclosure.go`: what of an instance's
state a caller may see whom the transport could not identify.

* `ExportedState` : the exported fields of the state, with the payloads of tokens; a nil slice is the empty list;
* `publicState`, `projectTokens`, `projectTasks`, `projectIncidents`, `projectCompletion` : the projection.

A task's completion stands behind a pointer that the state shares with whoever holds it, so it is modelled as one: a
completion is a position in a memory, and `projectCompletion` writes to the copy it makes. Every other field is written
on a value the projection has made itself.
-/

namespace Wrkflw

inductive DisclosureCategory where
  | vars | actors | notes | operations | policy | all
  deriving DecidableEq, Repr

abbrev DisclosureSet := List DisclosureCategory

def DisclosureSet.has (d : DisclosureSet) (c : DisclosureCategory) : Bool := d.contains c

structure ExportedToken extends Token where
  payload : Vars := []
  deriving DecidableEq

/-- A task whose completion is a `κ`. -/
structure ExportedTask (κ : Type) where
  taskID : String
  instanceID : String
  nodeID : String
  eligibility : AuthzSpec := ⟨[], [], ""⟩
  candidates : List Actor := []
  state : TaskState
  claim : Option (Actor × Time) := none
  completion : Option κ := none
  createdAt : Time
  dueAt : Option Time
  vars : Vars := []

structure ExportedState (κ : Type) where
  instanceID : String := ""
  defID : String := ""
  defVersion : Int := 0
  status : Status := .running
  vars : Vars := []
  startVariables : Vars := []
  tokens : List ExportedToken := []
  startedAt : Time := 0
  endedAt : Option Time := none
  history : List NodeVisit := []
  tasks : List (ExportedTask κ) := []
  timers : List TimerRecord := []
  armedEvents : List ArmedEvent := []
  boundaries : List BoundaryArm := []
  scopes : List Scope := []
  rootCompensations : List CompensationRecord := []
  archivedCompensations : Archive := []
  eventTriggeredSubprocesses : List EventTriggeredSubprocessArm := []
  compensating : CompensationCursor := {}
  incidents : List Incident := []
  pendingCancel : Bool := false
  pendingFinalStatus : Status := .running
  pendingFinalErr : String := ""
  deferredCompensationThrows : List String := []
  recentCompensationCmdIDs : List String := []
  cmdSeq : Nat := 0
  tokenSeq : Nat := 0
  taskSeq : Nat := 0
  timerSeq : Nat := 0
  scopeSeq : Nat := 0
  incidentSeq : Nat := 0

section Project
variable (d : DisclosureSet)

def projectToken (t : ExportedToken) : ExportedToken where
  id := t.id
  nodeID := t.nodeID
  scopeID := t.scopeID
  state := t.state
  enteredAt := t.enteredAt
  retryAttempts := t.retryAttempts
  retryStartedAt := t.retryStartedAt
  arrivalFlow := t.arrivalFlow
  payload := if d.has .vars then t.payload else []

def projectTokens (tokens : List ExportedToken) : List ExportedToken := tokens.map (projectToken d)

/-- The copy of a completion, with what is not disclosed blanked. -/
def blankedCompletion (c : Completion) : Completion :=
  let cc := if !d.has .notes then { c with note := "" } else c
  if !d.has .actors then { cc with actor := { id := "" } } else cc

/-- The completion is copied before it is blanked: the copy is new in the memory. -/
def projectCompletion (m : List Completion) (c : Option Nat) : List Completion × Option Nat :=
  match c.bind (fun p => m[p]?) with
  | none => (m, none)
  | some c => (m ++ [blankedCompletion d c], some m.length)

/-- The fields of a task that are disclosed, but for its completion. -/
def projectTaskFields {κ ι : Type} (completion : Option ι) (tk : ExportedTask κ) : ExportedTask ι where
  taskID := tk.taskID
  nodeID := tk.nodeID
  instanceID := tk.instanceID
  state := tk.state
  createdAt := tk.createdAt
  dueAt := tk.dueAt
  vars := if d.has .vars then tk.vars else []
  eligibility := if d.has .policy then tk.eligibility else ⟨[], [], ""⟩
  candidates := if d.has .actors then tk.candidates else []
  claim := if d.has .actors then tk.claim else none
  completion := completion

def projectTask (m : List Completion) (tk : ExportedTask Nat) : List Completion × ExportedTask Nat :=
  if d.has .actors || d.has .notes then
    let r := projectCompletion d m tk.completion
    (r.1, projectTaskFields d r.2 tk)
  else (m, projectTaskFields d none tk)

def projectTasks (m : List Completion) : List (ExportedTask Nat) → List Completion × List (ExportedTask Nat)
  | [] => (m, [])
  | tk :: tasks =>
    let r := projectTask d m tk
    let rest := projectTasks r.1 tasks
    (rest.1, r.2 :: rest.2)

def projectIncident (inc : Incident) : Incident := if !d.has .vars then { inc with error := "" } else inc

def projectIncidents (incidents : List Incident) : List Incident := incidents.map (projectIncident d)

/-- The cursor is copied whole; its records and its error text are cleared. -/
def projectCursor (c : CompensationCursor) : CompensationCursor :=
  if !d.has .vars then { c with records := [], finalErr := "" } else c

/-- The projection of a state with these tasks. -/
def projectFields {κ ι : Type} (st : ExportedState κ) (tasks : List (ExportedTask ι)) : ExportedState ι where
  instanceID := st.instanceID
  defID := st.defID
  defVersion := st.defVersion
  status := st.status
  startedAt := st.startedAt
  endedAt := st.endedAt
  pendingCancel := st.pendingCancel
  pendingFinalStatus := st.pendingFinalStatus
  history := st.history
  tokens := projectTokens d st.tokens
  tasks := tasks
  compensating := if d.has .operations then projectCursor d st.compensating else {}
  incidents := if d.has .operations then projectIncidents d st.incidents else []
  vars := if d.has .vars then st.vars else []
  startVariables := if d.has .vars then st.startVariables else []
  rootCompensations := if d.has .vars then st.rootCompensations else []
  scopes := if d.has .vars then st.scopes else []
  archivedCompensations := if d.has .vars then st.archivedCompensations else []

/-- `PublicState`, on a memory. -/
def publicState (m : List Completion) (st : ExportedState Nat) : List Completion × ExportedState Nat :=
  let r := projectTasks d m st.tasks
  (r.1, projectFields d st r.2)

end Project

end Wrkflw
