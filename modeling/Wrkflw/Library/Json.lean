import Mathlib.Data.List.Nodup

/-!
# Flat records as JSON documents

A record is written field by field under fixed keys, a field that is empty is left out, and a key that is missing is read
as the field's zero value:

* `Json` : a document, as the tree of its values; `any` holds a value of the caller's own that is carried unread;
* `encodeRecord` : the fields of a record that are not left out; `lookup_encodeRecord` : what is found under a key;
* `textField`, `boolField`, ... with `readText`, `readBool`, ... : a field of each type, and that it is read as it was
  written.
-/

namespace Wrkflw.Library

/-- A JSON document. An instant is written as a text; it is kept apart from other texts. -/
inductive Json (α : Type) where
  | null
  | bool (b : Bool)
  | int (n : Int)
  | num (q : Rat)
  | str (s : String)
  | time (t : Int)
  | any (v : α)
  | arr (items : List (Json α))
  | obj (fields : List (String × Json α))

variable {α β ρ : Type}

/-! ## Records -/

/-- The fields of a record under their keys, without those that are left out. -/
def encodeRecord (fields : List (String × (ρ → Option (Json α)))) (r : ρ) : List (String × Json α) :=
  fields.filterMap (fun f => (f.2 r).map (fun v => (f.1, v)))

/-- What is written under a key is all that is found there. -/
theorem lookup_encodeRecord {fields : List (String × (ρ → Option (Json α)))} (hkeys : (fields.map Prod.fst).Nodup)
    {k : String} {f : ρ → Option (Json α)} (hf : (k, f) ∈ fields) (r : ρ) : (encodeRecord fields r).lookup k = f r := by
  induction fields with
  | nil => cases hf
  | cons a fields ih =>
    obtain ⟨k', f'⟩ := a
    rw [List.map_cons, List.nodup_cons] at hkeys
    have hcons : encodeRecord ((k', f') :: fields) r =
        ((f' r).map (fun v => (k', v))).toList ++ encodeRecord fields r := by
      unfold encodeRecord
      cases hv : f' r with
      | none => simp [hv]
      | some v => simp [hv]
    rw [hcons]
    rcases List.mem_cons.mp hf with he | hmem
    · obtain ⟨rfl, rfl⟩ := Prod.mk.inj he
      cases hv : f r with
      | none =>
        -- the key is nowhere among the others
        rw [Option.map_none, Option.toList_none, List.nil_append, List.lookup_eq_none_iff]
        intro p hp
        obtain ⟨g, hg, hpg⟩ := List.mem_filterMap.mp hp
        obtain ⟨v, -, rfl⟩ := Option.map_eq_some_iff.mp hpg
        rw [bne_iff_ne]
        rintro rfl
        exact hkeys.1 (List.mem_map.mpr ⟨g, hg, rfl⟩)
      | some v => simp
    · have hne : k ≠ k' := by
        rintro rfl
        exact hkeys.1 (List.mem_map.mpr ⟨_, hmem, rfl⟩)
      cases hv : f' r with
      | none =>
        rw [Option.map_none, Option.toList_none, List.nil_append]
        exact ih hkeys.2 hmem
      | some v =>
        rw [Option.map_some, Option.toList_some, List.singleton_append, List.lookup_cons]
        rw [show (k == k') = false from by simpa using hne]
        exact ih hkeys.2 hmem

/-! ## Fields -/

def textField (s : String) : Option (Json α) := if s == "" then none else some (.str s)

def boolField (b : Bool) : Option (Json α) := if b then some (.bool b) else none

def intField (n : Int) : Option (Json α) := if n == 0 then none else some (.int n)

def numField (q : Rat) : Option (Json α) := if q == 0 then none else some (.num q)

def listField (enc : β → Json α) (l : List β) : Option (Json α) := if l.isEmpty then none else some (.arr (l.map enc))

def mapField (enc : β → Json α) (m : List (String × β)) : Option (Json α) :=
  if m.isEmpty then none else some (.obj (m.map (fun e => (e.1, enc e.2))))

/-- A key that is missing, or holds `null`, is read as the zero value. -/
def readOr (zero : β) (read : Json α → Option β) : Option (Json α) → Option β
  | none | some .null => some zero
  | some j => read j

def Json.text? : Json α → Option String
  | .str s => some s
  | _ => none

def Json.bool? : Json α → Option Bool
  | .bool b => some b
  | _ => none

def Json.int? : Json α → Option Int
  | .int n => some n
  | _ => none

def Json.num? : Json α → Option Rat
  | .num q => some q
  | .int n => some n
  | _ => none

def Json.time? : Json α → Option Int
  | .time t => some t
  | _ => none

def Json.list? (dec : Json α → Option β) : Json α → Option (List β)
  | .arr items => items.mapM dec
  | _ => none

def Json.map? (dec : Json α → Option β) : Json α → Option (List (String × β))
  | .obj fields => fields.mapM (fun e => (dec e.2).map (fun v => (e.1, v)))
  | _ => none

theorem readText_textField (s : String) : readOr "" Json.text? (textField s : Option (Json α)) = some s := by
  unfold textField
  by_cases hs : s = ""
  · rw [if_pos (by simpa using hs), hs]
    rfl
  · rw [if_neg (by simpa using hs)]
    rfl

theorem readBool_boolField (b : Bool) : readOr false Json.bool? (boolField b : Option (Json α)) = some b := by
  cases b <;> rfl

theorem readInt_intField (n : Int) : readOr 0 Json.int? (intField n : Option (Json α)) = some n := by
  unfold intField
  by_cases hn : n = 0
  · rw [if_pos (by simpa using hn), hn]
    rfl
  · rw [if_neg (by simpa using hn)]
    rfl

theorem readNum_numField (q : Rat) : readOr 0 Json.num? (numField q : Option (Json α)) = some q := by
  unfold numField
  by_cases hq : q = 0
  · rw [if_pos (by simpa using hq), hq]
    rfl
  · rw [if_neg (by simpa using hq)]
    rfl

theorem mapM_some {γ : Type} {f : β → Option γ} {h : β → γ} {l : List β} (hf : ∀ b ∈ l, f b = some (h b)) :
    l.mapM f = some (l.map h) := by
  induction l with
  | nil => rfl
  | cons b l ih =>
    rw [List.mapM_cons, hf b List.mem_cons_self, ih (fun b' hb' => hf b' (List.mem_cons_of_mem _ hb'))]
    rfl

/-- A list is read as it was written where each item is. -/
theorem readList_listField {enc : β → Json α} {dec : Json α → Option β} {l : List β}
    (h : ∀ b ∈ l, dec (enc b) = some b) : readOr [] (Json.list? dec) (listField enc l) = some l := by
  unfold listField
  by_cases hl : l = []
  · rw [if_pos (by simpa using hl), hl]
    rfl
  · rw [if_neg (by simpa using hl)]
    change (l.map enc).mapM dec = some l
    rw [List.mapM_map, mapM_some (f := dec ∘ enc) (h := fun b => b) h, List.map_id']

/-- A map is read with its values as they are read back. -/
theorem readMap_mapField {enc : β → Json α} {dec : Json α → Option β} {back : β → β} {m : List (String × β)}
    (h : ∀ e ∈ m, dec (enc e.2) = some (back e.2)) :
    readOr [] (Json.map? dec) (mapField enc m) = some (m.map (fun e => (e.1, back e.2))) := by
  unfold mapField
  by_cases hm : m = []
  · rw [if_pos (by simpa using hm), hm]
    rfl
  · rw [if_neg (by simpa using hm)]
    change (m.map (fun e => (e.1, enc e.2))).mapM (fun e => (dec e.2).map (fun v => (e.1, v))) = _
    rw [List.mapM_map]
    refine mapM_some (fun e he => ?_)
    rw [Function.comp_apply, h e he]
    rfl

end Wrkflw.Library
