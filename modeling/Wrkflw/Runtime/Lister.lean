import Wrkflw.Engine.State
import Wrkflw.Library.Keyset
import Wrkflw.Store.TriggerCodec
import Mathlib.Data.List.Sort

/-!
# The listing of instances

`List` of `MemInstanceStore` (`runtime/kernel/memstore.go`) with the cursors of `runtime/kernel/lister.go` and
`runtime/kernel/cursorcodec.go`.

* `Stamp`, `Rfc3339` : a time with its zone, and what its JSON text says, with `Stamp.marshalJSON` and `Rfc3339.read`;
* `encodeCursor`, `decodeCursor` : the cursor of a row; base64 and the JSON text are read as the document they hold;
* `InstanceTable.list` : one page.
-/

namespace Wrkflw

open Library

/-! ## Times as JSON -/

/-- A `time.Time`: an instant, and the offset of its zone from UTC in seconds. -/
structure Stamp where
  instant : Time
  offset : Int := 0
  deriving DecidableEq, Repr

/-- What an RFC 3339 text says: the clock on the wall, and the zone in minutes. -/
structure Rfc3339 where
  wall : Time
  zone : Int
  deriving DecidableEq, Repr

def Stamp.wall (t : Stamp) : Time := t.instant + t.offset * second

/-- The zone as it is written: its seconds are dropped. -/
def Stamp.zone (t : Stamp) : Int := t.offset.tdiv 60

/-- `Time.MarshalJSON`. -/
def Stamp.marshalJSON (t : Stamp) : Except String Rfc3339 :=
  if writableTime t.wall = false then .error "Time.MarshalJSON: year outside of range [0,9999]"
  else if 24 ≤ t.zone.natAbs / 60 then .error "Time.MarshalJSON: timezone hour outside of range [0,23]"
  else .ok ⟨t.wall, t.zone⟩

/-- `Time.UnmarshalJSON`. -/
def Rfc3339.read (r : Rfc3339) : Stamp := ⟨r.wall - r.zone * 60 * second, r.zone * 60⟩

/-! ## Cursors -/

/-- The empty text, the base64 of a JSON document, or anything else. -/
inductive CursorText where
  | empty
  | document (payload : Json Rfc3339)
  | malformed (err : String)

def errBadCursor : String := "workflow-runtime: malformed instance cursor"

def instanceCursorKind : String := "instance"

structure CursorPayload where
  kind : String
  startedAt : Stamp
  instanceID : String

/-- `json.Marshal` of a payload. -/
def CursorPayload.marshal (p : CursorPayload) : Except String (Json Rfc3339) :=
  match p.startedAt.marshalJSON with
  | .error err => .error ("json: error calling MarshalJSON for type time.Time: " ++ err)
  | .ok startedAt => .ok (.obj [("kind", .str p.kind), ("started_at", .any startedAt), ("instance_id", .str p.instanceID)])

def encodeCursorPayload (p : CursorPayload) : Except String CursorText :=
  match p.marshal with
  | .error err => .error err
  | .ok payload => .ok (.document payload)

def encodeCursor (startedAt : Stamp) (instanceID : String) : Except String CursorText :=
  match encodeCursorPayload ⟨instanceCursorKind, startedAt, instanceID⟩ with
  | .error err => .error ("workflow-runtime: encode instance cursor for " ++ quoted instanceID ++ ": " ++ err)
  | .ok c => .ok c

def readStamp : Json Rfc3339 → Option Stamp
  | .any r => some r.read
  | _ => none

/-- `decodeCursorInto` of a payload: unknown fields are refused, and a missing one is its zero value. -/
def decodeCursorInto : CursorText → Except String CursorPayload
  | .empty => .error "EOF"
  | .malformed err => .error err
  | .document (.obj fields) =>
    match fields.find? (fun e => !(["kind", "started_at", "instance_id"].contains e.1)) with
    | some e => .error ("json: unknown field " ++ quoted e.1)
    | none =>
      match readOr "" Json.text? (fields.lookup "kind"), readOr ⟨0, 0⟩ readStamp (fields.lookup "started_at"),
        readOr "" Json.text? (fields.lookup "instance_id") with
      | some kind, some startedAt, some instanceID => .ok ⟨kind, startedAt, instanceID⟩
      | _, _, _ => .error "json: cannot unmarshal"
  | .document _ => .error "json: cannot unmarshal"

def decodeCursor (cursor : CursorText) : Except String (Stamp × String) :=
  match decodeCursorInto cursor with
  | .error err => .error (errBadCursor ++ ": " ++ err)
  | .ok p =>
    if p.kind ≠ instanceCursorKind then .error (errBadCursor ++ ": not an instance cursor")
    else if p.instanceID = "" then .error (errBadCursor ++ ": cursor carries no instance identity")
    else if isZeroTime p.startedAt.instant then .error (errBadCursor ++ ": cursor carries no start time")
    else .ok (p.startedAt, p.instanceID)

/-! ## Pages -/

def normalizeLimit (n : Int) : Nat := if n ≤ 0 then 50 else if 200 < n then 200 else n.toNat

/-- An instance of the store, with the zone of its start time. -/
structure ListedInstance where
  state : InstanceState
  startedZone : Int := 0

/-- The instances of the store under their ids. -/
structure InstanceTable where
  instances : List ListedInstance
  key : (instances.map (·.state.instanceID)).Nodup

structure InstanceSummary where
  instanceID : String
  defID : String
  defVersion : Int
  status : Status
  startedAt : Stamp
  endedAt : Option Time
  incidentCount : Nat
  deriving DecidableEq

structure InstanceFilter where
  status : Option Status := none
  limit : Int := 0
  cursor : CursorText := .empty
  includeTotal : Bool := false

structure InstancePage extends Page InstanceSummary CursorText where
  totalCount : Nat

def ListedInstance.summary (i : ListedInstance) : InstanceSummary where
  instanceID := i.state.instanceID
  defID := i.state.defID
  defVersion := i.state.defVersion
  status := i.state.status
  startedAt := ⟨i.state.startedAt, i.startedZone⟩
  endedAt := i.state.endedAt
  incidentCount := i.state.incidents.length

/-- The instance passes the filter. -/
def InstanceFilter.passes (f : InstanceFilter) (i : ListedInstance) : Bool :=
  match f.status with
  | none => true
  | some status => i.state.status == status

def InstanceTable.matching (m : InstanceTable) (f : InstanceFilter) : List InstanceSummary :=
  (m.instances.filter f.passes).map ListedInstance.summary

/-- The comparison of `slices.SortFunc`, at most zero. -/
def InstanceSummary.notAfter (a b : InstanceSummary) : Prop :=
  b.startedAt.instant < a.startedAt.instant ∨ (b.startedAt.instant = a.startedAt.instant ∧ b.instanceID ≤ a.instanceID)

instance (a b : InstanceSummary) : Decidable (a.notAfter b) := inferInstanceAs (Decidable (_ ∨ _))

def InstanceTable.sorted (m : InstanceTable) (f : InstanceFilter) : List InstanceSummary :=
  (m.matching f).insertionSort InstanceSummary.notAfter

/-- `lessThan`: the row is below the key of a cursor. -/
def InstanceSummary.lessThan (it : InstanceSummary) (cursor : Stamp × String) : Bool :=
  decide (it.startedAt.instant < cursor.1.instant) ||
    (decide (it.startedAt.instant = cursor.1.instant) && decide (it.instanceID < cursor.2))

/-- The rows after the cursor. -/
def afterCursor (all : List InstanceSummary) : CursorText → Except String (List InstanceSummary)
  | .empty => .ok all
  | cursor =>
    match decodeCursor cursor with
    | .error err => .error err
    | .ok key => .ok (all.dropWhile (fun it => !it.lessThan key))

/-- The cursor to the next page, where there is one. -/
def nextCursor (hasMore : Bool) (all : List InstanceSummary) : Except String CursorText :=
  if hasMore = false then .ok .empty
  else
    match all.getLast? with
    | none => .ok .empty
    | some last => encodeCursor last.startedAt last.instanceID

def InstanceTable.list (m : InstanceTable) (f : InstanceFilter) : Except String InstancePage :=
  match afterCursor (m.sorted f) f.cursor with
  | .error err => .error err
  | .ok all =>
    let limit := normalizeLimit f.limit
    let hasMore := decide (limit < all.length)
    let items := if hasMore then all.take limit else all
    match nextCursor hasMore items with
    | .error err => .error err
    | .ok c =>
      .ok { items := items, nextCursor := c, hasMore := hasMore,
            totalCount := if f.includeTotal then (m.matching f).length else 0 }

end Wrkflw
