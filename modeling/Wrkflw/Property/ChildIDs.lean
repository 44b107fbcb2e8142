import Wrkflw.Runtime.System
import Mathlib.Data.String.Basic

/-!
# Every call command has its own child

The id of a child is its parent's, the infix and a suffix without a dash, so that the parent and the suffix can be
read off its last dash; an id that is too long is replaced by a digest behind `"sub-"`, which has one dash only.

* `Hexadecimal` : what `shortHash` gives, the first digits of a SHA-256 digest;
* `NoCollisions` : the digests of the calls differ where what is digested does, and none looks like a command counter;
* `child_ids_apart` : different calls have different children, under ids of at most 200 bytes.
-/

namespace Wrkflw

namespace ProcessDriver
variable {gen : Option IDGenerator} (driver : ProcessDriver gen)

/-- A digest of `n` lower-case hexadecimal digits, as `hex.EncodeToString` writes them. -/
def Hexadecimal : Prop :=
  ∀ s n, n ≤ 64 → (driver.shortHash s n).utf8ByteSize = n ∧
    ∀ c ∈ (driver.shortHash s n).toList, c.isDigit = true ∨ ('a' ≤ c ∧ c ≤ 'f')

/-- The part of the command's id behind the parent's id and a dash, if it is a command counter. -/
def counterOf (parentInstanceID commandID : String) : Option String :=
  let pre := (parentInstanceID ++ "-").toList
  let seq := commandID.toList.drop pre.length
  if pre.isPrefixOf commandID.toList && isEngineCommandCounter seq then some (String.ofList seq) else none

/-- The id before it is cut to its bound. -/
def longID (call : String × String) : String := call.1 ++ "-sub-" ++ driver.childCommandSuffix call.1 call.2

/-- The digests never collide on what the calls give them, and never look like a command counter. -/
structure NoCollisions (calls : Set (String × String)) : Prop where
  commands : ∀ x ∈ calls, ∀ y ∈ calls, counterOf x.1 x.2 = none → counterOf y.1 y.2 = none →
    driver.shortHash x.2 8 = driver.shortHash y.2 8 → x.2 = y.2
  ids : ∀ x ∈ calls, ∀ y ∈ calls, 200 < (driver.longID x).utf8ByteSize → 200 < (driver.longID y).utf8ByteSize →
    driver.shortHash (driver.longID x) 32 = driver.shortHash (driver.longID y) 32 → driver.longID x = driver.longID y
  counters : ∀ x ∈ calls, counterOf x.1 x.2 = none → isEngineCommandCounter (driver.shortHash x.2 8).toList = false

end ProcessDriver

section
variable {gen : Option IDGenerator} {driver : ProcessDriver gen}

open ProcessDriver

/-! ## Suffixes -/

theorem childCommandSuffix_eq (driver : ProcessDriver gen) (p c : String) :
    driver.childCommandSuffix p c = (counterOf p c).getD (driver.shortHash c 8) := by
  unfold childCommandSuffix counterOf
  dsimp only
  split <;> rfl

/-- The command with a counter is the parent's id, a dash and the counter. -/
theorem counterOf_spec {p c seq : String} (h : counterOf p c = some seq) :
    c = p ++ "-" ++ seq ∧ isEngineCommandCounter seq.toList = true := by
  unfold counterOf at h
  dsimp only at h
  split at h
  · rename_i hc
    rw [Bool.and_eq_true, List.isPrefixOf_iff_prefix] at hc
    obtain ⟨rest, hrest⟩ := hc.1
    obtain rfl := Option.some.inj h
    rw [← hrest, List.drop_left] at hc ⊢
    refine ⟨String.toList_inj.mp ?_, by simpa using hc.2⟩
    rw [String.toList_append, String.toList_ofList, hrest]
  · cases h

theorem dash_notMem_counter {l : List Char} (h : isEngineCommandCounter l = true) : '-' ∉ l := by
  unfold isEngineCommandCounter at h
  split at h
  · rename_i digits
    rw [Bool.and_eq_true, List.all_eq_true] at h
    intro hmem
    rcases List.mem_cons.mp hmem with hc | hmem
    · cases hc
    · exact absurd (h.2 '-' hmem) (by decide)
  · cases h

theorem ProcessDriver.Hexadecimal.dash_notMem (h : driver.Hexadecimal) (s : String) {n : Nat} (hn : n ≤ 64) :
    '-' ∉ (driver.shortHash s n).toList := by
  intro hmem
  rcases (h s n hn).2 '-' hmem with hc | ⟨hc, -⟩
  · cases hc
  · exact absurd hc (by decide)

theorem dash_notMem_suffix (h : driver.Hexadecimal) (p c : String) : '-' ∉ (driver.childCommandSuffix p c).toList := by
  rw [childCommandSuffix_eq]
  cases hc : counterOf p c with
  | none => exact h.dash_notMem c (by decide)
  | some seq => exact dash_notMem_counter (counterOf_spec hc).2

/-! ## Reading an id back -/

/-- Everything before the last dash, and everything behind it. -/
theorem last_dash_inj {a b s t : List Char} (hs : '-' ∉ s) (ht : '-' ∉ t) (h : a ++ '-' :: s = b ++ '-' :: t) :
    a = b ∧ s = t := by
  have hr := congrArg List.reverse h
  rw [List.reverse_append, List.reverse_append, List.reverse_cons, List.reverse_cons, List.append_assoc, List.append_assoc,
    List.singleton_append, List.singleton_append] at hr
  obtain ⟨hst, hab⟩ := Library.append_cons_inj (by simpa using hs) (by simpa using ht) hr
  exact ⟨List.reverse_injective hab, List.reverse_injective hst⟩

theorem longID_toList (driver : ProcessDriver gen) (x : String × String) :
    (driver.longID x).toList = (x.1.toList ++ ['-', 's', 'u', 'b']) ++ '-' :: (driver.childCommandSuffix x.1 x.2).toList := by
  unfold longID
  rw [String.toList_append, String.toList_append, List.append_assoc, List.append_assoc]
  rfl

/-- The parent's id and the suffix can be read off an id. -/
theorem longID_inj (h : driver.Hexadecimal) {x y : String × String} (he : driver.longID x = driver.longID y) :
    x.1 = y.1 ∧ driver.childCommandSuffix x.1 x.2 = driver.childCommandSuffix y.1 y.2 := by
  have hl := congrArg String.toList he
  rw [longID_toList, longID_toList] at hl
  obtain ⟨hp, hs⟩ := last_dash_inj (dash_notMem_suffix h x.1 x.2) (dash_notMem_suffix h y.1 y.2) hl
  exact ⟨String.toList_inj.mp (List.append_cancel_right hp), String.toList_inj.mp hs⟩

/-- A digest behind `"sub-"` is no id of the long form: that one has a second dash. -/
theorem folded_ne_longID (h : driver.Hexadecimal) (x : String × String) (s : String) :
    "sub-" ++ driver.shortHash s 32 ≠ driver.longID x := by
  intro he
  have hl := congrArg String.toList he
  rw [longID_toList, String.toList_append] at hl
  obtain ⟨hp, -⟩ := last_dash_inj (a := ['s', 'u', 'b']) (h.dash_notMem s (by decide)) (dash_notMem_suffix h x.1 x.2) hl
  have hlen := congrArg List.length hp
  simp at hlen

/-- The suffix determines the command of a parent. -/
theorem suffix_inj {calls : Set (String × String)} (hno : driver.NoCollisions calls) {x y : String × String} (hx : x ∈ calls)
    (hy : y ∈ calls) (hp : x.1 = y.1) (hs : driver.childCommandSuffix x.1 x.2 = driver.childCommandSuffix y.1 y.2) :
    x.2 = y.2 := by
  rw [childCommandSuffix_eq, childCommandSuffix_eq] at hs
  cases hcx : counterOf x.1 x.2 with
  | some seq =>
    cases hcy : counterOf y.1 y.2 with
    | some seq' =>
      rw [hcx, hcy] at hs
      rw [(counterOf_spec hcx).1, (counterOf_spec hcy).1, hp, show seq = seq' from hs]
    | none =>
      rw [hcx, hcy] at hs
      have hcounter := (counterOf_spec hcx).2
      rw [show seq = driver.shortHash y.2 8 from hs, hno.counters y hy hcy] at hcounter
      cases hcounter
  | none =>
    cases hcy : counterOf y.1 y.2 with
    | some seq' =>
      rw [hcx, hcy] at hs
      have hcounter := (counterOf_spec hcy).2
      rw [← show driver.shortHash x.2 8 = seq' from hs, hno.counters x hx hcx] at hcounter
      cases hcounter
    | none =>
      rw [hcx, hcy] at hs
      exact hno.commands x hx y hy hcx hcy hs

/-! ## Children -/

theorem childInstanceIDFor_eq (driver : ProcessDriver gen) (x : String × String) :
    driver.childInstanceIDFor x.1 x.2 = driver.longID x ∧ (driver.longID x).utf8ByteSize ≤ 200 ∨
      driver.childInstanceIDFor x.1 x.2 = "sub-" ++ driver.shortHash (driver.longID x) 32 ∧
        200 < (driver.longID x).utf8ByteSize := by
  unfold childInstanceIDFor
  dsimp only
  split
  · rename_i h
    exact Or.inl ⟨rfl, h⟩
  · rename_i h
    exact Or.inr ⟨rfl, not_le.mp h⟩

theorem childInstanceIDFor_injOn (h : driver.Hexadecimal) {calls : Set (String × String)} (hno : driver.NoCollisions calls) :
    Set.InjOn (fun x : String × String => driver.childInstanceIDFor x.1 x.2) calls := by
  intro x hx y hy he
  have hlong : driver.longID x = driver.longID y → x = y := by
    intro hl
    obtain ⟨hp, hs⟩ := longID_inj h hl
    exact Prod.ext hp (suffix_inj hno hx hy hp hs)
  change driver.childInstanceIDFor x.1 x.2 = driver.childInstanceIDFor y.1 y.2 at he
  rcases childInstanceIDFor_eq driver x with ⟨hxe, hxl⟩ | ⟨hxe, hxl⟩ <;>
    rcases childInstanceIDFor_eq driver y with ⟨hye, hyl⟩ | ⟨hye, hyl⟩ <;> rw [hxe, hye] at he
  · exact hlong he
  · exact absurd he.symm (folded_ne_longID h x _)
  · exact absurd he (folded_ne_longID h y _)
  · refine hlong (hno.ids x hx y hy hxl hyl (String.toList_inj.mp ?_))
    have hl := congrArg String.toList he
    rw [String.toList_append, String.toList_append] at hl
    exact List.append_cancel_left hl

theorem childInstanceIDFor_size (h : driver.Hexadecimal) (p c : String) :
    (driver.childInstanceIDFor p c).utf8ByteSize ≤ 200 := by
  rcases childInstanceIDFor_eq driver (p, c) with ⟨he, hl⟩ | ⟨he, -⟩
  · rw [he]
    exact hl
  · rw [he, String.utf8ByteSize_append, (h _ 32 (by decide)).1]
    decide

theorem performStartSubInstance_id {w : World} {links : MemCallLinks} {depth : Nat} {d : ProcessDefinition}
    {s : InstanceState} {commandID : String} {defRef : Qualifier} {input : Vars} {child : Child}
    (h : driver.performStartSubInstance w links depth d s commandID defRef input = .child child) :
    child.instanceID = driver.childInstanceIDFor s.instanceID commandID := by
  unfold performStartSubInstance at h
  dsimp only at h
  split at h
  · split at h
    · cases h
    · cases h
      rfl
  · split at h
    · cases h
    · split at h
      · cases h
      · cases h
        rfl

/-- Different calls have different children, whatever their parents' ids look like, and no id is longer than 200 bytes; so a
command that is performed, now or again, runs its own child and never another command's. -/
theorem child_ids_apart (h : driver.Hexadecimal) {calls : Set (String × String)} (hno : driver.NoCollisions calls) :
    (∀ x ∈ calls, ∀ y ∈ calls, x ≠ y → driver.childInstanceIDFor x.1 x.2 ≠ driver.childInstanceIDFor y.1 y.2) ∧
      (∀ p c, (driver.childInstanceIDFor p c).utf8ByteSize ≤ 200) ∧
      ∀ {w w' : World} {links links' : MemCallLinks} {depth depth' : Nat} {d d' : ProcessDefinition} {s s' : InstanceState}
        {cmd cmd' : String} {ref ref' : Qualifier} {input input' : Vars} {child child' : Child},
        (s.instanceID, cmd) ∈ calls → (s'.instanceID, cmd') ∈ calls →
        driver.performStartSubInstance w links depth d s cmd ref input = .child child →
        driver.performStartSubInstance w' links' depth' d' s' cmd' ref' input' = .child child' →
        (child.instanceID = child'.instanceID ↔ s.instanceID = s'.instanceID ∧ cmd = cmd') := by
  have hinj := childInstanceIDFor_injOn h hno
  refine ⟨fun x hx y hy hne he => hne (hinj hx hy he), childInstanceIDFor_size h, ?_⟩
  intro w w' links links' depth depth' d d' s s' cmd cmd' ref ref' input input' child child' hx hy hc hc'
  rw [performStartSubInstance_id hc, performStartSubInstance_id hc']
  constructor
  · exact fun he => Prod.mk.inj (hinj hx hy he)
  · rintro ⟨hs, rfl⟩
    rw [hs]

end

/-! ## Two calls of one parent -/

/-- The digests of SHA-256, for the ids the two calls below have digested. -/
def sha256Hex (s : String) : List Char :=
  if s = "cq8r1n0kg7" then
    ['9', '5', 'b', 'd', '3', '6', '8', 'b', 'c', 'b', 'd', '9', '6', 'b', '5', '8', '5', 'a', '3', 'b', 'f', '9',
      '0', '2', 'c', 'f', '2', '3', '3', '5', 'c', '7', 'e', '3', '4', 'b', 'a', 'c', '9', '4', 'd', '9', '8', 'e',
      '5', '6', '9', 'b', 'f', '5', '8', 'a', '3', '5', '3', '3', 'e', 'e', '6', '1', '7', '2', 'b', 'b']
  else
    ['e', '3', 'b', '0', 'c', '4', '4', '2', '9', '8', 'f', 'c', '1', 'c', '1', '4', '9', 'a', 'f', 'b', 'f', '4',
      'c', '8', '9', '9', '6', 'f', 'b', '9', '2', '4', '2', '7', 'a', 'e', '4', '1', 'e', '4', '6', '4', '9', 'b',
      '9', '3', '4', 'c', 'a', '4', '9', '5', '9', '9', '1', 'b', '7', '8', '5', '2', 'b', '8', '5', '5']

def digestDriver : ProcessDriver none := { plainDriver with shortHash := fun s n => String.ofList ((sha256Hex s).take n) }

/-- An opaque command id, and a counter of a parent whose own id has the form of a child's. -/
def twoCalls : Set (String × String) := {("order-sub-c1", "cq8r1n0kg7"), ("order-sub-c1", "order-sub-c1-c2")}

/-- A text of one byte a character. -/
theorem utf8ByteSize_plain {l : List Char} (h : ∀ c ∈ l, c.utf8Size = 1) : (String.ofList l).utf8ByteSize = l.length := by
  rw [String.utf8ByteSize_ofList]
  induction l with
  | nil => rfl
  | cons c l ih =>
    rw [String.utf8Len_cons, ih (fun a ha => h a (List.mem_cons_of_mem _ ha)), h c List.mem_cons_self]
    rfl

theorem sha256Hex_hex (s : String) : (sha256Hex s).length = 64 ∧
    ∀ c ∈ sha256Hex s, c.utf8Size = 1 ∧ (c.isDigit = true ∨ ('a' ≤ c ∧ c ≤ 'f')) := by
  let digits := ['0', '1', '2', '3', '4', '5', '6', '7', '8', '9', 'a', 'b', 'c', 'd', 'e', 'f']
  have hall : (sha256Hex s).all digits.contains = true := by
    unfold sha256Hex
    split <;> rfl
  have hdigit : ∀ c ∈ digits, c.utf8Size = 1 ∧ (c.isDigit = true ∨ ('a' ≤ c ∧ c ≤ 'f')) := by
    intro c hc
    simp only [digits, List.mem_cons, List.not_mem_nil, or_false] at hc
    rcases hc with rfl | rfl | rfl | rfl | rfl | rfl | rfl | rfl | rfl | rfl | rfl | rfl | rfl | rfl | rfl | rfl <;> decide
  refine ⟨?_, fun c hc => hdigit c (List.contains_iff_mem.mp (List.all_eq_true.mp hall c hc))⟩
  unfold sha256Hex
  split <;> rfl

theorem digestDriver_hex : digestDriver.Hexadecimal := by
  intro s n hn
  obtain ⟨hlength, hchars⟩ := sha256Hex_hex s
  have htaken : ∀ c ∈ (sha256Hex s).take n, c ∈ sha256Hex s := fun c hc => List.mem_of_mem_take hc
  constructor
  · change (String.ofList ((sha256Hex s).take n)).utf8ByteSize = n
    rw [utf8ByteSize_plain (fun c hc => (hchars c (htaken c hc)).1), List.length_take, hlength]
    omega
  · intro c hc
    rw [show digestDriver.shortHash s n = String.ofList ((sha256Hex s).take n) from rfl, String.toList_ofList] at hc
    exact (hchars c (htaken c hc)).2

theorem two_calls_apart : digestDriver.childInstanceIDFor "order-sub-c1" "cq8r1n0kg7" = "order-sub-c1-sub-95bd368b" ∧
    digestDriver.childInstanceIDFor "order-sub-c1" "order-sub-c1-c2" = "order-sub-c1-sub-c2" ∧
    ∀ x ∈ twoCalls, ∀ y ∈ twoCalls, x ≠ y →
      digestDriver.childInstanceIDFor x.1 x.2 ≠ digestDriver.childInstanceIDFor y.1 y.2 := by
  have hshort : ∀ x ∈ twoCalls, ¬ 200 < (digestDriver.longID x).utf8ByteSize := by
    rintro x (rfl | rfl) <;> decide
  refine ⟨by decide, by decide, (child_ids_apart digestDriver_hex ⟨?_, fun x hx y _ hl => absurd hl (hshort x hx), ?_⟩).1⟩
  · rintro x (rfl | rfl) y (rfl | rfl) hx hy he
    · rfl
    · exact absurd hy (by decide)
    · exact absurd hx (by decide)
    · rfl
  · rintro x (rfl | rfl) hx
    · decide
    · exact absurd hx (by decide)

end Wrkflw
