import Mathlib.Data.List.TakeWhile
import Mathlib.Tactic.Common

/-!
# Pages under a keyset cursor

Rows in a fixed order are handed out page by page. A page that is not the last comes with a cursor written from its last
row; the next request reads a key off the cursor and leaves out the rows that are not below the key.

* `Page`, `Follows` : the pages that are had by following the cursors to the end;
* `Keyset`, `Keyset.pageOf`, `Keyset.Serves` : requests that are answered so;
* `Keyset.Resumes` : the cursor of a row is read as a key between it and the next;
* `Keyset.follows_exact_iff` : the pages are the rows if and only if the cursors of the last rows resume.
-/

namespace Wrkflw.Library

variable {ρ γ κ ε : Type}

structure Page (ρ γ : Type) where
  items : List ρ
  nextCursor : γ
  hasMore : Bool

/-- No request fails, and the last page says that it is the last. -/
inductive Follows (request : γ → Except ε (Page ρ γ)) : γ → List (List ρ) → Prop
  | last {c : γ} {page : Page ρ γ} (h : request c = .ok page) (hmore : page.hasMore = false) : Follows request c [page.items]
  | more {c : γ} {page : Page ρ γ} {pages : List (List ρ)} (h : request c = .ok page) (hmore : page.hasMore = true)
      (hrest : Follows request page.nextCursor pages) : Follows request c (page.items :: pages)

structure Keyset (ρ γ κ ε : Type) where
  encode : ρ → Except ε γ
  decode : γ → Except ε κ
  below : ρ → κ → Bool

namespace Keyset

/-- The page at the head of the rows that are left. -/
def pageOf (K : Keyset ρ γ κ ε) (first : γ) (limit : Nat) (rest : List ρ) : Except ε (Page ρ γ) :=
  if limit < rest.length then
    match (rest.take limit).getLast? with
    | none => .ok ⟨rest.take limit, first, true⟩
    | some last =>
      match K.encode last with
      | .error err => .error err
      | .ok c => .ok ⟨rest.take limit, c, true⟩
  else .ok ⟨rest, first, false⟩

structure Serves (K : Keyset ρ γ κ ε) (first : γ) (limit : Nat) (rows : List ρ) (request : γ → Except ε (Page ρ γ)) :
    Prop where
  start : request first = K.pageOf first limit rows
  next : ∀ {r c}, K.encode r = .ok c → ∀ {k}, K.decode c = .ok k →
    request c = K.pageOf first limit (rows.dropWhile (fun row => !K.below row k))
  refuse : ∀ {r c}, K.encode r = .ok c → ∀ {err}, K.decode c = .error err → request c = .error err

def Resumes (K : Keyset ρ γ κ ε) (last next : ρ) : Prop :=
  ∃ c k, K.encode last = .ok c ∧ K.decode c = .ok k ∧ K.below last k = false ∧ K.below next k = true

/-- The rows are distinct, and what is below a key is so with all that comes after it. -/
def Ordered (K : Keyset ρ γ κ ε) (rows : List ρ) : Prop :=
  rows.Pairwise (fun a b => a ≠ b ∧ ∀ k, K.below a k = true → K.below b k = true)

/-- At the end of every full page that is not the last, the cursor resumes. -/
def ResumesAt (K : Keyset ρ γ κ ε) (limit : Nat) (rest : List ρ) : Prop :=
  ∀ i last next, limit ∣ i + 1 → rest[i]? = some last → rest[i + 1]? = some next → K.Resumes last next

variable {K : Keyset ρ γ κ ε} {first : γ} {limit : Nat} {rows rest : List ρ} {request : γ → Except ε (Page ρ γ)}

/-! ## The rows a key leaves -/

theorem Ordered.dropWhile_eq {before after : List ρ} {last next : ρ} {k : κ} (h : K.Ordered (before ++ last :: next :: after))
    (hlast : K.below last k = false) (hnext : K.below next k = true) :
    (before ++ last :: next :: after).dropWhile (fun row => !K.below row k) = next :: after := by
  have hbefore : ∀ row ∈ before, (!K.below row k) = true := by
    intro row hrow
    by_contra hbelow
    simp only [Bool.not_eq_true', Bool.not_eq_false] at hbelow
    have := (List.pairwise_append.mp h).2.2 row hrow last List.mem_cons_self
    rw [this.2 k hbelow] at hlast
    cases hlast
  rw [List.dropWhile_append_of_pos hbefore, List.dropWhile_cons_of_pos (by simp [hlast]),
    List.dropWhile_cons_of_neg (by simp [hnext])]

/-- A key that leaves the next row in front lies between the two. -/
theorem Ordered.between_of_head {before after : List ρ} {last next : ρ} {k : κ}
    (h : K.Ordered (before ++ last :: next :: after))
    (hhead : ((before ++ last :: next :: after).dropWhile (fun row => !K.below row k)).head? = some next) :
    K.below last k = false ∧ K.below next k = true := by
  have hnext : K.below next k = true := by
    have hne : (before ++ last :: next :: after).dropWhile (fun row => !K.below row k) ≠ [] := by
      intro hnil
      rw [hnil] at hhead
      cases hhead
    have hstop := List.head_dropWhile_not (fun row => !K.below row k) hne
    rw [List.head?_eq_some_head hne, Option.some.injEq] at hhead
    rw [hhead] at hstop
    simpa using hstop
  refine ⟨?_, hnext⟩
  by_contra hlast
  rw [Bool.not_eq_false] at hlast
  -- otherwise the front is the last row or one before it, and none of these is the next
  have hsplit : before ++ last :: next :: after = (before ++ [last]) ++ (next :: after) := by simp
  rw [hsplit] at hhead h
  have hany : ∃ row ∈ before ++ [last], ¬ (!K.below row k) = true :=
    ⟨last, List.mem_append_right _ (List.mem_singleton.mpr rfl), by simp [hlast]⟩
  rw [List.dropWhile_append] at hhead
  have hne : (before ++ [last]).dropWhile (fun row => !K.below row k) ≠ [] := by
    intro hnil
    rw [List.dropWhile_eq_nil_iff] at hnil
    obtain ⟨row, hrow, hstop⟩ := hany
    exact hstop (hnil row hrow)
  rw [if_neg (by simpa using hne), List.head?_append, List.head?_eq_some_head hne, Option.some_or, Option.some.injEq] at hhead
  have hmem : next ∈ before ++ [last] := by
    rw [← hhead]
    exact (List.dropWhile_suffix _).subset (List.head_mem hne)
  exact ((List.pairwise_append.mp h).2.2 next hmem next List.mem_cons_self).1 rfl

/-! ## One page -/

theorem pageOf_last (h : ¬ limit < rest.length) : K.pageOf first limit rest = .ok ⟨rest, first, false⟩ := if_neg h

/-- A full page that is not the last, cut at its last row. -/
theorem pageOf_more (hlimit : 0 < limit) (h : limit < rest.length) :
    ∃ front last next after, rest = front ++ last :: next :: after ∧ rest.take limit = front ++ [last] ∧
      rest.drop limit = next :: after ∧ front.length + 1 = limit ∧
      K.pageOf first limit rest =
        match K.encode last with
        | .error err => .error err
        | .ok c => .ok ⟨rest.take limit, c, true⟩ := by
  have hne : rest.take limit ≠ [] := by
    intro hnil
    have := congrArg List.length hnil
    rw [List.length_take, List.length_nil] at this
    omega
  have hne' : rest.drop limit ≠ [] := by
    intro hnil
    have := congrArg List.length hnil
    rw [List.length_drop, List.length_nil] at this
    omega
  obtain ⟨next, after, hdrop⟩ := List.exists_cons_of_ne_nil hne'
  have htake := (List.dropLast_concat_getLast hne).symm
  refine ⟨(rest.take limit).dropLast, (rest.take limit).getLast hne, next, after, ?_, htake, hdrop, ?_, ?_⟩
  · have hsplit := List.take_append_drop limit rest
    rw [hdrop, htake, List.append_assoc] at hsplit
    exact hsplit.symm
  · rw [List.length_dropLast, List.length_take]
    omega
  · unfold pageOf
    rw [if_pos h, List.getLast?_eq_some_getLast hne]

theorem pageOf_head (hlimit : 0 < limit) {page : Page ρ γ} (h : K.pageOf first limit rest = .ok page) :
    page.items.head? = rest.head? ∧ (page.hasMore = true → rest ≠ []) := by
  by_cases hlt : limit < rest.length
  · obtain ⟨front, last, next, after, hrest, htake, -, -, hpage⟩ := pageOf_more (K := K) hlimit hlt
    rw [hpage] at h
    split at h <;> cases h
    refine ⟨?_, fun _ => ?_⟩
    · rw [htake, hrest]
      cases front <;> rfl
    · rw [hrest]
      simp
  · rw [pageOf_last hlt] at h
    cases h
    exact ⟨rfl, nofun⟩

/-- The pages begin with the row that is in front. -/
theorem head_of_follows (hlimit : 0 < limit) {c : γ} {pages : List (List ρ)} (hc : request c = K.pageOf first limit rest)
    (h : Follows request c pages) : pages.flatten.head? = rest.head? := by
  cases h with
  | last h hmore =>
    rw [hc] at h
    simpa using (pageOf_head hlimit h).1
  | more h hmore hrest =>
    rename_i page pages
    rw [hc] at h
    obtain ⟨hhead, hne⟩ := pageOf_head hlimit h
    have hitems : page.items ≠ [] := by
      intro hnil
      rw [hnil, List.head?_nil, eq_comm, List.head?_eq_none_iff] at hhead
      exact hne hmore hhead
    rw [List.flatten_cons, List.head?_append, List.head?_eq_some_head hitems, Option.some_or,
      ← List.head?_eq_some_head hitems,
      hhead]

/-! ## All pages -/

theorem resumesAt_last (h : ¬ limit < rest.length) : K.ResumesAt limit rest := by
  intro i last next hi hlast hnext
  obtain ⟨hlt, -⟩ := List.getElem?_eq_some_iff.mp hnext
  have := Nat.le_of_dvd (Nat.succ_pos i) hi
  omega

theorem resumesAt_iff {front after : List ρ} {last next : ρ} (hrest : rest = front ++ last :: next :: after)
    (hdrop : rest.drop limit = next :: after) (hfront : front.length + 1 = limit) :
    K.ResumesAt limit rest ↔ K.Resumes last next ∧ K.ResumesAt limit (next :: after) := by
  have hat : ∀ i, rest[limit + i]? = (next :: after)[i]? := by
    intro i
    rw [← hdrop, List.getElem?_drop]
  constructor
  · intro h
    refine ⟨?_, ?_⟩
    · refine h front.length last next (hfront ▸ Nat.dvd_refl _) ?_ ?_
      · rw [hrest, List.getElem?_append_right (Nat.le_refl _), Nat.sub_self]
        rfl
      · have := hat 0
        rw [Nat.add_zero] at this
        rw [hfront, this]
        rfl
    · intro i last' next' hi hlast hnext
      refine h (limit + i) last' next' ?_ ?_ ?_
      · rw [Nat.add_assoc]
        exact (Nat.dvd_add_right (Nat.dvd_refl limit)).mpr hi
      · rw [hat, hlast]
      · rw [Nat.add_assoc, hat, hnext]
  · rintro ⟨hresumes, hlater⟩ i last' next' hi hlast hnext
    have hle := Nat.le_of_dvd (Nat.succ_pos i) hi
    by_cases hfirst : i + 1 = limit
    · obtain rfl : i = front.length := by omega
      rw [hrest, List.getElem?_append_right (Nat.le_refl _), Nat.sub_self] at hlast
      cases hlast
      have := hat 0
      rw [Nat.add_zero] at this
      rw [hfirst, this] at hnext
      cases hnext
      exact hresumes
    · obtain ⟨j, rfl⟩ : ∃ j, i = limit + j := ⟨i - limit, by omega⟩
      rw [hat] at hlast
      rw [Nat.add_assoc, hat] at hnext
      rw [Nat.add_assoc] at hi
      exact hlater j last' next' ((Nat.dvd_add_right (Nat.dvd_refl limit)).mp hi) hlast hnext

theorem follows_rest_iff (hlimit : 0 < limit) (hordered : K.Ordered rows) (hserves : K.Serves first limit rows request)
    {c : γ} {before : List ρ} (hrows : rows = before ++ rest) (hc : request c = K.pageOf first limit rest) :
    (∃ pages, Follows request c pages ∧ pages.flatten = rest ∧ ∀ page ∈ pages, page.length ≤ limit) ↔
      K.ResumesAt limit rest := by
  -- by induction on the rows that are left: a page that is not the last takes some of them
  induction hn : rest.length using Nat.strongRecOn generalizing rest before c with
  | _ n ih =>
    by_cases hlt : limit < rest.length
    · obtain ⟨front, last, next, after, hrest, htake, hdrop, hfront, hpage⟩ := pageOf_more (K := K) hlimit hlt
      rw [resumesAt_iff hrest hdrop hfront]
      have hordered' : K.Ordered ((before ++ front) ++ last :: next :: after) := by
        have := hordered
        rw [hrows, hrest] at this
        rw [List.append_assoc]
        exact this
      have hrows' : rows = (before ++ front) ++ last :: next :: after := by rw [hrows, hrest, List.append_assoc]
      have hrows'' : rows = (before ++ front ++ [last]) ++ (next :: after) := by rw [hrows']; simp
      have hshorter : (next :: after).length < n := by
        rw [← hdrop, List.length_drop]
        omega
      have hcut : rest = (front ++ [last]) ++ (next :: after) := by rw [hrest]; simp
      constructor
      · rintro ⟨pages, hfollows, hflatten, hsizes⟩
        rw [hpage] at hc
        cases hencode : K.encode last with
        | error err =>
          rw [hencode] at hc
          cases hfollows with
          | last h _ => rw [hc] at h; cases h
          | more h _ _ => rw [hc] at h; cases h
        | ok c' =>
          rw [hencode] at hc
          cases hfollows with
          | last h hmore =>
            rw [hc] at h
            cases h
            cases hmore
          | more h hmore hfollows' =>
            rename_i page pages
            rw [hc] at h
            cases h
            rw [List.flatten_cons, htake, hcut] at hflatten
            have hlater := List.append_cancel_left hflatten
            cases hdecode : K.decode c' with
            | error err =>
              have hrefused := hserves.refuse hencode hdecode
              cases hfollows' with
              | last h _ => rw [hrefused] at h; cases h
              | more h _ _ => rw [hrefused] at h; cases h
            | ok k =>
              have hnext := hserves.next hencode hdecode
              have hhead := head_of_follows hlimit hnext hfollows'
              rw [hlater, hrows'] at hhead
              have hbetween := hordered'.between_of_head hhead.symm
              refine ⟨⟨c', k, hencode, hdecode, hbetween⟩, ?_⟩
              rw [hrows', hordered'.dropWhile_eq hbetween.1 hbetween.2] at hnext
              exact (ih _ hshorter hrows'' hnext rfl).mp
                ⟨pages, hfollows', hlater, fun page hpage => hsizes page (List.mem_cons_of_mem _ hpage)⟩
      · rintro ⟨⟨c', k, hencode, hdecode, hlast, hnext⟩, hlater⟩
        have hserved := hserves.next hencode hdecode
        rw [hrows', hordered'.dropWhile_eq hlast hnext] at hserved
        obtain ⟨pages, hfollows, hflatten, hsizes⟩ := (ih _ hshorter hrows'' hserved rfl).mpr hlater
        rw [hpage, hencode] at hc
        refine ⟨_, .more hc rfl hfollows, ?_, ?_⟩
        · rw [List.flatten_cons, hflatten, htake, hcut]
        · intro page hpage
          obtain rfl | hpage := List.mem_cons.mp hpage
          · exact List.length_take_le limit rest
          · exact hsizes page hpage
    · refine iff_of_true ?_ (resumesAt_last hlt)
      rw [pageOf_last hlt] at hc
      refine ⟨_, .last hc rfl, by simp, ?_⟩
      intro page hpage
      cases List.mem_singleton.mp hpage
      exact Nat.not_lt.mp hlt

/-- Following the cursors ends with every row once and in order, on pages no longer than the limit, if and only if at the end
of every full page but the last the cursor resumes. -/
theorem follows_exact_iff (hlimit : 0 < limit) (hordered : K.Ordered rows) (hserves : K.Serves first limit rows request) :
    (∃ pages, Follows request first pages ∧ pages.flatten = rows ∧ ∀ page ∈ pages, page.length ≤ limit) ↔
      K.ResumesAt limit rows :=
  follows_rest_iff hlimit hordered hserves (List.nil_append rows).symm hserves.start

end Keyset

end Wrkflw.Library
