import Wrkflw.Store.Transaction

/-!
# The call links of the SQL store

`ClaimPending` without a lease, `scanPendingRows` and `MarkNotified` of `CallLinkStore`
(`internal/persistence/store/call_links.go`), and the `DrainOnce` of a notifier over them (`runtime/calllink/notifier.go`).
Every statement of the database succeeds. What comes of a link's delivery is a parameter.
-/

namespace Wrkflw

/-- How a database orders the texts of a key. -/
structure Collation where
  le : String → String → Bool
  total : ∀ a b, (le a b || le b a) = true
  trans : ∀ a b c, le a b = true → le b c = true → le a c = true
  antisymm : ∀ a b, le a b = true → le b a = true → a = b

/-- Byte by byte. -/
def Collation.binary : Collation where
  le a b := decide (a ≤ b)
  total a b := by simpa using String.le_total a b
  trans a b c hab hbc := by
    simp only [decide_eq_true_eq] at hab hbc ⊢
    exact String.le_trans hab hbc
  antisymm a b hab hba := by
    simp only [decide_eq_true_eq] at hab hba
    exact String.le_antisymm hab hba

/-- `unmarshalPayload` of the output column, empty or not. -/
def CallLinkRow.readOutput (row : CallLinkRow) : Except String (Option Vars) :=
  match row.output with
  | none => .ok none
  | some json => unmarshalPayload json

/-- The rows of `wrkflw_call_links`, with their key; the output column is only ever written by `json.Marshal`. -/
structure CallLinkTable where
  rows : List CallLinkRow
  key : (rows.map (fun row => row.link.childInstanceID)).Nodup
  readable : ∀ row ∈ rows, ∃ output, row.readOutput = .ok output

/-- The condition of the claim query. -/
def CallLinkRow.claimable (row : CallLinkRow) : Bool :=
  (row.status == .completed || row.status == .failed) && row.notifiedAt.isNone

/-- One row of `scanPendingRows`. -/
def CallLinkRow.scan (row : CallLinkRow) : Except String PendingNotify :=
  match row.readOutput with
  | .error err => .error ("workflow-store: call links: claim: unmarshal output: " ++ err)
  | .ok output => .ok ⟨row.link,
      { completed := row.status == .completed, output := output.getD [], err := row.error.getD "" }⟩

/-- `ORDER BY child_instance_id`. -/
def orderByChild (c : Collation) (rows : List CallLinkRow) : List CallLinkRow :=
  rows.mergeSort (fun a b => c.le a.link.childInstanceID b.link.childInstanceID)

/-- `LIMIT`, where there is one. -/
def limited (limit : Int) (rows : List CallLinkRow) : List CallLinkRow := if 0 < limit then rows.take limit.toNat else rows

/-- `claimPendingPlain`. -/
def claimPendingPlain (c : Collation) (limit : Int) (rows : List CallLinkRow) : Except String (List PendingNotify) :=
  (limited limit (orderByChild c (rows.filter (·.claimable)))).mapM CallLinkRow.scan

/-- `MarkNotified`. -/
def markNotifiedRow (now : Time) (childInstanceID : String) (rows : List CallLinkRow) : List CallLinkRow :=
  rows.map (fun row =>
    if row.link.childInstanceID = childInstanceID then { row with status := .notified, notifiedAt := some now } else row)

/-! ## The notifier -/

/-- What comes of the delivery of a link. -/
inductive LinkDelivery where
  | lookupFails
  | fails (err : String)
  | tokenNotFound
  | delivered
  deriving DecidableEq, Repr

/-- The link is marked: the parent was told, or had been before. -/
def LinkDelivery.settles : LinkDelivery → Bool
  | .lookupFails | .fails _ => false
  | .tokenNotFound | .delivered => true

/-- The loop of `DrainOnce`: the links marked so far and the table. -/
def drainLinks (deliver : CallLink → LinkDelivery) (now : Time) : List PendingNotify → Nat → List CallLinkRow →
    Nat × List CallLinkRow
  | [], notified, rows => (notified, rows)
  | p :: pending, notified, rows =>
    match deliver p.link with
    | .lookupFails => drainLinks deliver now pending notified rows
    | .fails _ => drainLinks deliver now pending notified rows
    | .tokenNotFound | .delivered =>
      drainLinks deliver now pending (notified + 1) (markNotifiedRow now p.link.childInstanceID rows)

/-- `DrainOnce`; the batch of a notifier is positive. -/
def drainCallLinks (c : Collation) (deliver : CallLink → LinkDelivery) (batch : Nat) (now : Time) (rows : List CallLinkRow) :
    Except String (Nat × List CallLinkRow) :=
  match claimPendingPlain c batch rows with
  | .error err => .error ("workflow-runtime: call notifier: claim: " ++ err)
  | .ok pending => .ok (drainLinks deliver now pending 0 rows)

/-- `DrainOnce` called at each of the times. -/
def drainAll (c : Collation) (deliver : CallLink → LinkDelivery) (batch : Nat) : List Time → List CallLinkRow →
    Except String (List CallLinkRow)
  | [], rows => .ok rows
  | now :: times, rows =>
    match drainCallLinks c deliver batch now rows with
    | .error err => .error err
    | .ok (_, rows') => drainAll c deliver batch times rows'

end Wrkflw
