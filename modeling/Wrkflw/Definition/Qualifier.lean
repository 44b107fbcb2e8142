import Wrkflw.Definition.Model
import Wrkflw.Library.Text
import Mathlib.Data.List.TakeWhile

/-!
# Definition references as texts

`Qualifier.String` and `ParseQualifier` (`definition/model/qualifier.go`): a reference is written `"id"` or `"id:version"`
and cut at its first colon when it is read.

* `parseQualifier_toText` : a reference whose id has no colon is read as it was written;
* `parseQualifier_colon` : a pinned reference whose id has a colon is not read at all.
-/

namespace Wrkflw

/-- `math.MaxInt`. -/
def maxInt : Int := 9223372036854775807

/-- `strconv.Atoi`: an optional sign and decimal digits, within 64 bits. -/
def atoi (s : List Char) : Except String Int :=
  let (negative, digits) : Bool × List Char := match s with
    | '-' :: rest => (true, rest)
    | '+' :: rest => (false, rest)
    | rest => (false, rest)
  if digits.isEmpty || !digits.all Char.isDigit then
    .error ("strconv.Atoi: parsing " ++ quoted (String.ofList s) ++ ": invalid syntax")
  else
    let n : Int := Nat.ofDigitChars 10 digits 0
    let v := if negative then -n else n
    if v < -maxInt - 1 || maxInt < v then
      .error ("strconv.Atoi: parsing " ++ quoted (String.ofList s) ++ ": value out of range")
    else .ok v

/-- `strings.Cut(s, ":")`: what stands before the first colon, and what stands behind it. -/
def cutColon (s : List Char) : List Char × Option (List Char) :=
  (s.takeWhile (· != ':'), (s.dropWhile (· != ':')).tail?)

/-- `ErrInvalidQualifier`, wrapped. -/
def invalidQualifier (err : String) : String := "workflow-model: invalid qualifier: " ++ err

def parseQualifier (s : String) : Except String Qualifier :=
  let (id, version) := cutColon s.toList
  if id.isEmpty then .error (invalidQualifier ("empty id in " ++ quoted s))
  else match version with
    | none => .ok { id := String.ofList id }
    | some digits =>
      match atoi digits with
      | .error err => .error (invalidQualifier ("bad version in " ++ quoted s ++ ": " ++ err))
      | .ok v =>
        if v < 1 then .error (invalidQualifier ("version must be >= 1 in " ++ quoted s))
        else .ok { id := String.ofList id, version := v }

/-- A number is read as it was written. -/
theorem atoi_toDigits {n : Nat} (h : (n : Int) ≤ maxInt) : atoi (Nat.toDigits 10 n) = .ok (n : Int) := by
  have hall : (Nat.toDigits 10 n).all Char.isDigit = true := by
    rw [List.all_eq_true]
    exact fun c hc => Library.isDigit_of_mem hc
  have hne : (Nat.toDigits 10 n).isEmpty = false := by
    rw [List.isEmpty_eq_false_iff]
    exact Nat.toDigits_ne_nil
  have hvalue : Nat.ofDigitChars 10 (Nat.toDigits 10 n) 0 = n := Nat.ofDigitChars_ten_toDigits
  have hsign : (match Nat.toDigits 10 n with
      | '-' :: rest => (true, rest)
      | '+' :: rest => (false, rest)
      | rest => (false, rest)) = (false, Nat.toDigits 10 n) := by
    cases hd : Nat.toDigits 10 n with
    | nil => rfl
    | cons c l =>
      have hdigit := Library.digits_of_cons_eq hd
      split
      · rename_i heq
        rw [(List.cons.inj heq).1] at hdigit
        cases hdigit
      · rename_i heq
        rw [(List.cons.inj heq).1] at hdigit
        cases hdigit
      · rfl
  unfold atoi
  rw [hsign]
  dsimp only
  rw [hne, hall, hvalue]
  have hlow : ¬ ((n : Int) < -maxInt - 1) := by
    unfold maxInt
    omega
  simp [hlow, h]

/-- A text with a colon is no number. -/
theorem atoi_colon {s : List Char} (h : ':' ∈ s) : ∃ err, atoi s = .error err := by
  unfold atoi
  dsimp only
  have hbad : ∀ digits : List Char, ':' ∈ digits → (digits.isEmpty || !digits.all Char.isDigit) = true := by
    intro digits hd
    rw [Bool.or_eq_true]
    refine Or.inr ?_
    rw [Bool.not_eq_true', Bool.eq_false_iff]
    intro hall
    have hdigit := List.all_eq_true.mp hall ':' hd
    cases hdigit
  split
  · rename_i rest
    rw [if_pos (hbad _ ((List.mem_cons.mp h).resolve_left (by decide)))]
    exact ⟨_, rfl⟩
  · rename_i rest
    rw [if_pos (hbad _ ((List.mem_cons.mp h).resolve_left (by decide)))]
    exact ⟨_, rfl⟩
  · rw [if_pos (hbad _ h)]
    exact ⟨_, rfl⟩

/-- What a text without a colon is cut into. -/
theorem cutColon_none {s : List Char} (h : ':' ∉ s) : cutColon s = (s, none) := by
  have hall : ∀ c ∈ s, (c != ':') = true := by
    intro c hc
    rw [bne_iff_ne]
    rintro rfl
    exact h hc
  unfold cutColon
  rw [List.takeWhile_eq_self_iff.mpr hall, List.dropWhile_eq_nil_iff.mpr hall]
  rfl

/-- The cut is at the first colon. -/
theorem cutColon_append {s t : List Char} (h : ':' ∉ s) : cutColon (s ++ ':' :: t) = (s, some t) := by
  have hall : ∀ c ∈ s, (c != ':') = true := by
    intro c hc
    rw [bne_iff_ne]
    rintro rfl
    exact h hc
  unfold cutColon
  rw [List.takeWhile_append_of_pos hall, List.dropWhile_append_of_pos hall]
  simp

theorem toText_pinned {q : Qualifier} {n : Nat} (hv : q.version = (n + 1 : Nat)) :
    q.toText.toList = q.id.toList ++ ':' :: Nat.toDigits 10 (n + 1) := by
  have hne : (q.version == 0) = false := by
    rw [hv, beq_eq_false_iff_ne]
    omega
  have htext : toString q.version = toString (n + 1) := by
    rw [hv]
    rfl
  unfold Qualifier.toText
  rw [hne, htext]
  simp

/-- A reference whose id has no colon is read as it was written. -/
theorem parseQualifier_toText {q : Qualifier} (hid : q.id ≠ "") (hcolon : ':' ∉ q.id.toList) (hlow : 0 ≤ q.version)
    (hhigh : q.version ≤ maxInt) : parseQualifier q.toText = .ok q := by
  have hne : q.id.toList.isEmpty = false := by
    rw [List.isEmpty_eq_false_iff]
    intro he
    exact hid (String.toList_inj.mp he)
  obtain ⟨v, hv⟩ := Int.eq_ofNat_of_zero_le hlow
  unfold parseQualifier
  cases v with
  | zero =>
    have htext : q.toText = q.id := by
      unfold Qualifier.toText
      rw [hv]
      rfl
    rw [htext, cutColon_none hcolon]
    dsimp only
    rw [hne]
    simp only [Bool.false_eq_true, if_false, String.ofList_toList]
    rw [show q = ⟨q.id, q.version⟩ from rfl, hv]
    rfl
  | succ n =>
    rw [toText_pinned hv, cutColon_append hcolon]
    dsimp only
    have hread : atoi (Nat.toDigits 10 (n + 1)) = .ok ((n + 1 : Nat) : Int) := atoi_toDigits (hv ▸ hhigh)
    rw [hne, hread]
    have hpos : ¬ (((n + 1 : Nat) : Int) < 1) := by omega
    simp only [Bool.false_eq_true, if_false, String.ofList_toList]
    rw [if_neg hpos, ← hv]

/-- A pinned reference whose id has a colon is not read. -/
theorem parseQualifier_colon {q : Qualifier} (hcolon : ':' ∈ q.id.toList) (hlow : 1 ≤ q.version) :
    ∃ err, parseQualifier q.toText = .error err := by
  obtain ⟨v, hv⟩ := Int.eq_ofNat_of_zero_le (show 0 ≤ q.version by omega)
  cases v with
  | zero => omega
  | succ n =>
    obtain ⟨pre, post, hsplit, hpre⟩ := List.eq_append_cons_of_mem hcolon
    unfold parseQualifier
    rw [toText_pinned hv, hsplit, List.append_assoc, List.cons_append, cutColon_append hpre]
    dsimp only
    split
    · exact ⟨_, rfl⟩
    · obtain ⟨err, herr⟩ := atoi_colon (s := post ++ ':' :: Nat.toDigits 10 (n + 1))
        (List.mem_append_right _ List.mem_cons_self)
      rw [herr]
      exact ⟨_, rfl⟩

end Wrkflw
