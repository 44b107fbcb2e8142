import Mathlib.Logic.Function.Basic

/-!
# Sessions with advisory locks

A session of a database server holds locks under keys, each as often as it was taken: taking one that is held is granted
again, a release takes one back, and the end of the session takes back all.

* `Session`, `Session.lock`, `Session.unlock`, `Session.unlockAll`, `Session.sever`;
* `Reply` : how a call over a connection ends; one that fails may have reached the server;
* `Session.Idle` : the session holds nothing.
-/

namespace Wrkflw.Library

structure Session (κ : Type) where
  alive : Bool := true
  count : κ → Nat := fun _ => 0

inductive Reply where
  | works
  /-- The call fails; whether the server had done what it asks. -/
  | fails (took : Bool)
  deriving DecidableEq

def Reply.took : Reply → Bool
  | .works => true
  | .fails took => took

namespace Session
variable {κ : Type} (s : Session κ)

/-- The call reaches the server. -/
def reached (r : Reply) : Bool := s.alive && r.took

/-- The caller gets its answer. -/
def answered (r : Reply) : Bool := s.alive && r == .works

/-- A lock is granted if no other session holds it, or this one does. -/
def granted (k : κ) (free : Bool) : Bool := free || decide (0 < s.count k)

def lock [DecidableEq κ] (k : κ) : Session κ := { s with count := Function.update s.count k (s.count k + 1) }

def unlock [DecidableEq κ] (k : κ) : Session κ := { s with count := Function.update s.count k (s.count k - 1) }

def unlockAll : Session κ := { s with count := fun _ => 0 }

/-- The session ends, and its locks with it. -/
def sever (_ : Session κ) : Session κ := { alive := false }

def Idle : Prop := ∀ k, s.count k = 0

/-- A session that has ended holds nothing. -/
def Sound : Prop := s.alive = false → s.Idle

theorem sound_sever : s.sever.Sound := fun _ _ => rfl

variable {s}

theorem reached_alive {r : Reply} (h : s.reached r = true) : s.alive = true := (Bool.and_eq_true_iff.mp h).1

theorem took_of_reached {r : Reply} (h : s.reached r = true) : r.took = true := (Bool.and_eq_true_iff.mp h).2

theorem reached_of_answered {r : Reply} (h : s.answered r = true) : s.reached r = true := by
  obtain ⟨ha, hr⟩ := Bool.and_eq_true_iff.mp h
  have hw : r = .works := by simpa using hr
  subst hw
  unfold reached
  rw [ha]
  rfl

variable [DecidableEq κ]

theorem count_lock (k k' : κ) : (s.lock k).count k' = if k' = k then s.count k + 1 else s.count k' :=
  Function.update_apply _ _ _ _

theorem count_unlock (k k' : κ) : (s.unlock k).count k' = if k' = k then s.count k - 1 else s.count k' :=
  Function.update_apply _ _ _ _

theorem sound_lock {k : κ} (ha : s.alive = true) : (s.lock k).Sound := by
  intro h
  rw [show (s.lock k).alive = s.alive from rfl, ha] at h
  cases h

theorem Sound.unlock (hs : s.Sound) (k : κ) : (s.unlock k).Sound := by
  intro h k'
  have hzero := hs h
  rw [count_unlock, hzero k, hzero k']
  split <;> rfl

end Session

end Wrkflw.Library
