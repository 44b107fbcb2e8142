import Wrkflw.Definition.Model
import Wrkflw.Library.Runs

/-!
# Processed messages

`Seen` and `Prune` of `Deduper` (`internal/persistence/store/dedup.go`) in the transactions of any number of consumers. A
consumer processes a message where `Seen` says that it is the first time, and skips it otherwise.

* `DedupTx` : a consumer's transaction, which `Seen` joins; without one `Seen` opens a transaction of its own and commits it;
* `Dedup.step` : one statement. An insert waits while another open transaction has inserted the same key;
* what a text is to the key columns is a parameter: itself on Postgres and SQLite, while the MySQL columns keep 255
  characters of it and do not tell its case.
-/

namespace Wrkflw

structure Message where
  subscriber : String
  messageID : String
  deriving DecidableEq, Repr

/-- The key of a message in a table with these columns. -/
def Message.key (stored : String → String) (m : Message) : Message := ⟨stored m.subscriber, stored m.messageID⟩

/-- A row of `wrkflw_processed_message`. -/
structure ProcessedRow where
  key : Message
  processedAt : Time
  deriving DecidableEq, Repr

/-- A transaction that is open: the rows it has inserted, the messages it has processed and those it has skipped. -/
structure DedupTx where
  rows : List ProcessedRow := []
  processed : List Message := []
  skipped : List Message := []
  deriving DecidableEq, Repr

namespace DedupTx

def keys (tx : DedupTx) : List Message := tx.rows.map (·.key)

/-- The message is new: its row is inserted and the consumer processes it. -/
def takes (tx : DedupTx) (stored : String → String) (m : Message) (now : Time) : DedupTx :=
  { tx with rows := tx.rows ++ [⟨m.key stored, now⟩], processed := tx.processed ++ [m] }

def skips (tx : DedupTx) (m : Message) : DedupTx := { tx with skipped := tx.skipped ++ [m] }

end DedupTx

/-- The table and the open transactions. The lists say what became of the messages for good, and which keys were pruned. -/
structure Dedup where
  rows : List ProcessedRow := []
  txs : List DedupTx := []
  processed : List Message := []
  skipped : List Message := []
  pruned : List Message := []
  deriving DecidableEq, Repr

def Dedup.keys (x : Dedup) : List Message := x.rows.map (·.key)

inductive DedupStep where
  | opens
  | seen (tx : Nat) (m : Message) (now : Time)
  | commit (tx : Nat)
  | rollback (tx : Nat)
  | prune (before : Time)

namespace Dedup

/-- `Seen` in an open transaction. -/
def seen (stored : String → String) (x : Dedup) (i : Nat) (tx : DedupTx) (m : Message) (now : Time) : Option Dedup :=
  -- the unique index holds the insert up until the other transaction ends
  if ((x.txs.eraseIdx i).flatMap DedupTx.keys).contains (m.key stored) then none
  else if (x.keys ++ tx.keys).contains (m.key stored) then some { x with txs := x.txs.set i (tx.skips m) }
  else some { x with txs := x.txs.set i (tx.takes stored m now) }

def commit (x : Dedup) (i : Nat) (tx : DedupTx) : Dedup :=
  { x with rows := x.rows ++ tx.rows, txs := x.txs.eraseIdx i, processed := x.processed ++ tx.processed,
           skipped := x.skipped ++ tx.skipped }

/-- `Prune`. -/
def prune (x : Dedup) (before : Time) : Dedup :=
  { x with rows := x.rows.filter (fun row => !decide (row.processedAt < before)),
           pruned := x.pruned ++ (x.rows.filter (fun row => decide (row.processedAt < before))).map (·.key) }

def step (stored : String → String) (x : Dedup) : DedupStep → Option Dedup
  | .opens => some { x with txs := x.txs ++ [{}] }
  | .seen i m now => x.txs[i]?.bind (fun tx => x.seen stored i tx m now)
  | .commit i => x.txs[i]?.map (x.commit i)
  -- also a commit that fails
  | .rollback i => x.txs[i]?.map (fun _ => { x with txs := x.txs.eraseIdx i })
  | .prune before => some (x.prune before)

end Dedup

end Wrkflw
