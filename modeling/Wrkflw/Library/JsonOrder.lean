import Wrkflw.Library.Json

/-!
# Documents up to the order of keys

A database that keeps JSON values gives a document back with the keys of its objects in an order of its own.

* `Json.Same` : the documents differ in the order of keys only;
* `SameFields` : the objects have the same keys, and the same under each of them;
* `Respects` : a reader does not see the order; the readers of fields do not, and neither does one that reads what is under
  fixed keys;
* `Json.equal` : the documents are written as the same text.
-/

namespace Wrkflw.Library

variable {α β : Type}

/-- The documents differ in the order of keys only. -/
inductive Json.Same : Json α → Json α → Prop
  | refl (j : Json α) : Same j j
  | arr {l l' : List (Json α)} (hlen : l.length = l'.length)
      (h : ∀ (i : Nat) j j', l[i]? = some j → l'[i]? = some j' → Same j j') : Same (.arr l) (.arr l')
  | obj {o o' : List (String × Json α)} (hkeys : ∀ k, (o.lookup k).isSome = (o'.lookup k).isSome)
      (h : ∀ k j j', o.lookup k = some j → o'.lookup k = some j' → Same j j') : Same (.obj o) (.obj o')

/-- The objects have the same keys, and the same under each. -/
structure SameFields (o o' : List (String × Json α)) : Prop where
  keys : ∀ k, (o.lookup k).isSome = (o'.lookup k).isSome
  under : ∀ k j j', o.lookup k = some j → o'.lookup k = some j' → j.Same j'

/-- The reader does not see the order of keys. -/
def Respects (read : Json α → Option β) : Prop := ∀ j j', j.Same j' → read j = read j'

theorem respects_text : Respects (Json.text? (α := α)) := by
  intro j j' h
  cases h <;> rfl

theorem respects_bool : Respects (Json.bool? (α := α)) := by
  intro j j' h
  cases h <;> rfl

theorem respects_int : Respects (Json.int? (α := α)) := by
  intro j j' h
  cases h <;> rfl

theorem respects_num : Respects (Json.num? (α := α)) := by
  intro j j' h
  cases h <;> rfl

theorem respects_time : Respects (Json.time? (α := α)) := by
  intro j j' h
  cases h <;> rfl

theorem mapM_congr_getElem {γ : Type} {f : γ → Option β} {l l' : List γ} (hlen : l.length = l'.length)
    (h : ∀ (i : Nat) a a', l[i]? = some a → l'[i]? = some a' → f a = f a') : l.mapM f = l'.mapM f := by
  induction l generalizing l' with
  | nil =>
    cases l' with
    | nil => rfl
    | cons a' l' => cases hlen
  | cons a l ih =>
    cases l' with
    | nil => cases hlen
    | cons a' l' =>
      rw [List.mapM_cons, List.mapM_cons, h 0 a a' rfl rfl,
        ih (Nat.succ.inj hlen) (fun i b b' hb hb' => h (i + 1) b b' hb hb')]

theorem respects_list {dec : Json α → Option β} (hdec : Respects dec) : Respects (Json.list? dec) := by
  intro j j' h
  cases h with
  | refl => rfl
  | arr hlen h => exact mapM_congr_getElem hlen (fun i a a' ha ha' => hdec a a' (h i a a' ha ha'))
  | obj hkeys h => rfl

theorem respects_map {γ : Type} {read : Json α → Option β} (hread : Respects read) (f : β → γ) :
    Respects (fun j => (read j).map f) := fun j j' h => congrArg (Option.map f) (hread j j' h)

namespace SameFields
variable {o o' : List (String × Json α)} (h : SameFields o o')
include h

/-- What is under a key in both. -/
theorem found (k : String) : (o.lookup k = none ∧ o'.lookup k = none) ∨
    ∃ j j', o.lookup k = some j ∧ o'.lookup k = some j' ∧ j.Same j' := by
  have hk := h.keys k
  cases hj : o.lookup k with
  | none =>
    rw [hj] at hk
    exact Or.inl ⟨rfl, Option.isSome_eq_false_iff.mp hk.symm |> Option.isNone_iff_eq_none.mp⟩
  | some j =>
    rw [hj] at hk
    obtain ⟨j', hj'⟩ := Option.isSome_iff_exists.mp hk.symm
    exact Or.inr ⟨j, j', rfl, hj', h.under k j j' hj hj'⟩

theorem field {read : Json α → Option β} (hread : Respects read) (zero : β) (k : String) :
    readOr zero read (o.lookup k) = readOr zero read (o'.lookup k) := by
  rcases h.found k with ⟨hj, hj'⟩ | ⟨j, j', hj, hj', hsame⟩
  · rw [hj, hj']
  · rw [hj, hj']
    cases hsame with
    | refl => rfl
    | arr hlen hl => exact hread _ _ (.arr hlen hl)
    | obj hkeys ho => exact hread _ _ (.obj hkeys ho)

theorem text (zero k : String) : readOr zero Json.text? (o.lookup k) = readOr zero Json.text? (o'.lookup k) :=
  h.field respects_text zero k

theorem bool (zero : Bool) (k : String) : readOr zero Json.bool? (o.lookup k) = readOr zero Json.bool? (o'.lookup k) :=
  h.field respects_bool zero k

theorem int (zero : Int) (k : String) : readOr zero Json.int? (o.lookup k) = readOr zero Json.int? (o'.lookup k) :=
  h.field respects_int zero k

/-- What all keys of the one are all keys of the other are. -/
theorem all_keys (p : String → Bool) : o.all (fun e => p e.1) = o'.all (fun e => p e.1) := by
  have hone : ∀ {a b : List (String × Json α)}, (∀ k, (a.lookup k).isSome = (b.lookup k).isSome) →
      a.all (fun e => p e.1) = true → b.all (fun e => p e.1) = true := by
    intro a b hkeys hall
    rw [List.all_eq_true] at hall ⊢
    intro e he
    have hb : (b.lookup e.1).isSome = true := by
      rw [Option.isSome_iff_ne_none]
      intro hnone
      rw [List.lookup_eq_none_iff] at hnone
      have hne := hnone e he
      simp at hne
    rw [← hkeys] at hb
    obtain ⟨v, hv⟩ := Option.isSome_iff_exists.mp hb
    obtain ⟨l1, l2, rfl, -⟩ := List.lookup_eq_some_iff.mp hv
    exact hall (e.1, v) (by simp)
  rw [Bool.eq_iff_iff]
  exact ⟨hone h.keys, hone (fun k => (h.keys k).symm)⟩

end SameFields

/-- A reader of objects. -/
theorem respects_obj {read : Json α → Option β} (hobj : ∀ o o', SameFields o o' → read (.obj o) = read (.obj o'))
    (harr : ∀ l l', read (.arr l) = read (.arr l')) : Respects read := by
  intro j j' hsame
  cases hsame with
  | refl => rfl
  | arr hlen hl => exact harr _ _
  | obj hkeys ho => exact hobj _ _ ⟨hkeys, ho⟩

/-! ## Equal documents -/

section Equal
variable [DecidableEq α]

mutual

/-- The documents are the same. -/
def Json.equal : Json α → Json α → Bool
  | .null, .null => true
  | .bool a, .bool b => a == b
  | .int a, .int b => a == b
  | .num a, .num b => a == b
  | .str a, .str b => a == b
  | .time a, .time b => a == b
  | .any a, .any b => a == b
  | .arr a, .arr b => equalItems a b
  | .obj a, .obj b => equalFields a b
  | _, _ => false

def equalItems : List (Json α) → List (Json α) → Bool
  | [], [] => true
  | a :: as, b :: bs => a.equal b && equalItems as bs
  | _, _ => false

def equalFields : List (String × Json α) → List (String × Json α) → Bool
  | [], [] => true
  | (k, a) :: as, (k', b) :: bs => k == k' && a.equal b && equalFields as bs
  | _, _ => false

end

mutual

theorem Json.equal_iff : ∀ a b : Json α, a.equal b = true ↔ a = b
  | .null, b => by cases b <;> simp [Json.equal]
  | .bool a, b => by cases b <;> simp [Json.equal]
  | .int a, b => by cases b <;> simp [Json.equal]
  | .num a, b => by cases b <;> simp [Json.equal]
  | .str a, b => by cases b <;> simp [Json.equal]
  | .time a, b => by cases b <;> simp [Json.equal]
  | .any a, b => by cases b <;> simp [Json.equal]
  | .arr a, b => by
    cases b with
    | arr b => rw [Json.equal, equalItems_iff a b, Json.arr.injEq]
    | _ => simp [Json.equal]
  | .obj a, b => by
    cases b with
    | obj b => rw [Json.equal, equalFields_iff a b, Json.obj.injEq]
    | _ => simp [Json.equal]

theorem equalItems_iff : ∀ a b : List (Json α), equalItems a b = true ↔ a = b
  | [], b => by cases b <;> simp [equalItems]
  | a :: as, b => by
    cases b with
    | nil => simp [equalItems]
    | cons b bs => rw [equalItems, Bool.and_eq_true, Json.equal_iff a b, equalItems_iff as bs, List.cons.injEq]

theorem equalFields_iff : ∀ a b : List (String × Json α), equalFields a b = true ↔ a = b
  | [], b => by cases b <;> simp [equalFields]
  | (k, a) :: as, b => by
    cases b with
    | nil => simp [equalFields]
    | cons b bs =>
      obtain ⟨k', b⟩ := b
      rw [equalFields, Bool.and_eq_true, Bool.and_eq_true, beq_iff_eq, Json.equal_iff a b,
        equalFields_iff as bs, List.cons.injEq,
        Prod.mk.injEq]

end

end Equal

end Wrkflw.Library
