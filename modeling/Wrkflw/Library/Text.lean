import Mathlib.Data.List.Basic

/-!
# Numbered names

Names built from a decimal number and a text are read back uniquely:

* `toDigits_inj` : a number is determined by its decimal digits;
* `numbered_inj` : `"<n>:<text>"` determines both parts;
* `digits_of_cons_eq` : a text that is all digits has no other first character;
* `toString_int_inj`, `colon_notMem_toString` : the same for numbers with a sign.
-/

namespace Wrkflw.Library

theorem toDigits_inj {m n : Nat} (h : Nat.toDigits 10 m = Nat.toDigits 10 n) : m = n := by
  have := congrArg (fun l => Nat.ofDigitChars 10 l 0) h
  simpa only [Nat.ofDigitChars_ten_toDigits] using this

theorem isDigit_of_mem {n : Nat} {c : Char} (h : c ∈ Nat.toDigits 10 n) : c.isDigit = true :=
  Nat.isDigit_of_mem_toDigits (by decide) (by decide) h

theorem toList_toString (n : Nat) : (toString n).toList = Nat.toDigits 10 n := Nat.toList_repr

/-- Two texts with the same separator split at the same place, where neither has it before. -/
theorem append_cons_inj {α : Type} {sep : α} : ∀ {ds es l r : List α}, sep ∉ ds → sep ∉ es →
    ds ++ sep :: l = es ++ sep :: r → ds = es ∧ l = r := by
  intro ds
  induction ds with
  | nil =>
    intro es l r _ hes h
    cases es with
    | nil => exact ⟨rfl, (List.cons.inj h).2⟩
    | cons e es => exact absurd ((List.cons.inj h).1 ▸ List.mem_cons_self) hes
  | cons d ds ih =>
    intro es l r hds hes h
    cases es with
    | nil => exact absurd ((List.cons.inj h).1 ▸ List.mem_cons_self) hds
    | cons e es =>
      obtain ⟨hde, hrest⟩ := List.cons.inj h
      obtain ⟨h1, h2⟩ := ih (fun hc => hds (List.mem_cons_of_mem _ hc)) (fun hc => hes (List.mem_cons_of_mem _ hc)) hrest
      exact ⟨by rw [hde, h1], h2⟩

/-- A number is written without a colon. -/
theorem colon_notMem_toDigits (n : Nat) : ':' ∉ Nat.toDigits 10 n := by
  intro h
  cases isDigit_of_mem h

/-- `"<n>:<text>"` determines the number and the text. -/
theorem numbered_inj {m n : Nat} {a b : String}
    (h : toString m ++ ":" ++ a = toString n ++ ":" ++ b) : m = n ∧ a = b := by
  have hl := congrArg String.toList h
  simp only [String.toList_append, toList_toString] at hl
  have hc : (":" : String).toList = [':'] := rfl
  rw [hc, List.append_assoc, List.append_assoc, List.singleton_append, List.singleton_append] at hl
  obtain ⟨h1, h2⟩ := append_cons_inj (colon_notMem_toDigits m) (colon_notMem_toDigits n) hl
  exact ⟨toDigits_inj h1, String.toList_inj.mp h2⟩

/-- The first character of a decimal number is a digit. -/
theorem digits_of_cons_eq {n : Nat} {c : Char} {l : List Char} (h : Nat.toDigits 10 n = c :: l) :
    c.isDigit = true :=
  isDigit_of_mem (n := n) (by rw [h]; exact List.mem_cons_self)

/-! ## Numbers with a sign -/

theorem toList_toString_int (v : Int) :
    (toString v).toList = if v < 0 then '-' :: Nat.toDigits 10 v.natAbs else Nat.toDigits 10 v.natAbs := by
  cases v with
  | ofNat n =>
    have hpos : ¬ Int.ofNat n < 0 := Int.not_lt.mpr (Int.natCast_nonneg n)
    rw [if_neg hpos]
    exact toList_toString n
  | negSucc n =>
    rw [if_pos (by omega)]
    change ("-" ++ toString (n + 1)).toList = _
    rw [String.toList_append, toList_toString]
    rfl

theorem colon_notMem_toString (v : Int) : ':' ∉ (toString v).toList := by
  rw [toList_toString_int]
  split
  · intro h
    rcases List.mem_cons.mp h with h | h
    · cases h
    · exact colon_notMem_toDigits _ h
  · exact colon_notMem_toDigits _

theorem toString_int_inj {v w : Int} (h : toString v = toString w) : v = w := by
  have hlist := congrArg String.toList h
  rw [toList_toString_int, toList_toString_int] at hlist
  have hminus : ∀ {n : Nat} {l : List Char}, Nat.toDigits 10 n ≠ '-' :: l := by
    intro n l he
    cases digits_of_cons_eq he
  split at hlist
  · split at hlist
    · have := toDigits_inj (List.cons.inj hlist).2
      omega
    · exact absurd hlist.symm hminus
  · split at hlist
    · exact absurd hlist hminus
    · have := toDigits_inj hlist
      omega

end Wrkflw.Library
