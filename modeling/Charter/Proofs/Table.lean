import Charter.Table

/-! # Tables in order

The keys of a table are linearly ordered, and writing keeps them ascending. -/

namespace Charter.Table

section Entries

variable {κ ν : Type} [DecidableEq κ]

theorem get?_eq_none_iff {t : Table κ ν} {k : κ} : t.get? k = none ↔ ∀ e ∈ t, e.1 ≠ k := by
  induction t with
  | nil => simp [get?]
  | cons e t ih =>
    obtain ⟨j, w⟩ := e
    by_cases hkj : k = j
    · simp [get?, hkj]
    · simp [get?, hkj, ih, Ne.symm hkj]

theorem mem_of_get? {t : Table κ ν} {k : κ} {v : ν} (h : t.get? k = some v) : (k, v) ∈ t := by
  induction t with
  | nil => cases h
  | cons e t ih =>
    obtain ⟨j, w⟩ := e
    unfold get? at h
    split at h
    · rename_i hkj
      cases h
      rw [hkj]
      exact List.mem_cons_self
    · exact List.mem_cons_of_mem _ (ih h)

theorem get?_insert_eq_some [LT κ] [DecidableLT κ] {t : Table κ ν} {k j : κ} {v w : ν}
    (h : (t.insert k v).get? j = some w) :
    j = k ∧ w = v ∨ j ≠ k ∧ t.get? j = some w := by
  rw [get?_insert] at h
  split at h
  · rename_i hj
    exact .inl ⟨hj, (Option.some.inj h).symm⟩
  · rename_i hj
    exact .inr ⟨hj, h⟩

theorem get?_insert_eq_none [LT κ] [DecidableLT κ] {t : Table κ ν} {k j : κ} {v : ν}
    (h : (t.insert k v).get? j = none) :
    j ≠ k ∧ t.get? j = none := by
  rw [get?_insert] at h
  split at h
  · cases h
  · rename_i hj
    exact ⟨hj, h⟩

theorem get?_map {μ : Type} (f : ν → μ) (t : Table κ ν) (k : κ) :
    get? (t.map (fun e => (e.1, f e.2))) k = (t.get? k).map f := by
  induction t with
  | nil => rfl
  | cons e t ih =>
    obtain ⟨j, w⟩ := e
    by_cases hkj : k = j
    · simp [get?, hkj]
    · simpa [get?, hkj] using ih

theorem mem_insert [LT κ] [DecidableLT κ] {t : Table κ ν} {k : κ} {v : ν} {e : κ × ν}
    (h : e ∈ t.insert k v) : e = (k, v) ∨ e ∈ t := by
  induction t with
  | nil => simpa [insert] using h
  | cons e' t ih =>
    obtain ⟨j, w⟩ := e'
    unfold insert at h
    split at h
    · rcases List.mem_cons.mp h with h | h
      · exact .inl h
      · exact .inr (List.mem_cons_of_mem _ h)
    · split at h
      · exact List.mem_cons.mp h
      · rcases List.mem_cons.mp h with h | h
        · exact .inr (h ▸ List.mem_cons_self)
        · exact (ih h).imp id (List.mem_cons_of_mem _)

theorem length_insert [LT κ] [DecidableLT κ] {t : Table κ ν} {k : κ} (h : t.get? k = none) (v : ν) :
    (t.insert k v).length = t.length + 1 := by
  induction t with
  | nil => rfl
  | cons e t ih =>
    obtain ⟨j, w⟩ := e
    by_cases hkj : k = j
    · simp [get?, hkj] at h
    · by_cases hlt : k < j
      · simp [insert, hkj, hlt]
      · simp only [get?, hkj, if_false] at h
        simp [insert, hkj, hlt, ih h]

/-- Writing entries under new, distinct keys adds each of them. -/
theorem foldl_insert_spec [LT κ] [DecidableLT κ] {entries : List (κ × ν)} {t : Table κ ν}
    (distinct : (entries.map Prod.fst).Nodup) (fresh : ∀ e ∈ entries, t.get? e.1 = none) :
    (entries.foldl (fun t e => t.insert e.1 e.2) t).length = t.length + entries.length ∧
      (∀ e ∈ entries, get? (entries.foldl (fun t e => t.insert e.1 e.2) t) e.1 = some e.2) ∧
      ∀ k, k ∉ entries.map Prod.fst →
        get? (entries.foldl (fun t e => t.insert e.1 e.2) t) k = t.get? k := by
  induction entries generalizing t with
  | nil => simp
  | cons e entries ih =>
    obtain ⟨j, w⟩ := e
    simp only [List.map_cons, List.nodup_cons] at distinct
    obtain ⟨hj, hd⟩ := distinct
    have hfresh : ∀ e ∈ entries, (t.insert j w).get? e.1 = none := by
      intro e he
      have hne : e.1 ≠ j := by
        rintro rfl
        exact hj (List.mem_map_of_mem he)
      rw [get?_insert, if_neg hne]
      exact fresh e (List.mem_cons_of_mem _ he)
    obtain ⟨hlen, hmem, hother⟩ := ih hd hfresh
    refine ⟨?_, ?_, ?_⟩
    · rw [List.foldl_cons, hlen, length_insert (fresh (j, w) List.mem_cons_self), List.length_cons]
      omega
    · intro e he
      rcases List.mem_cons.mp he with rfl | he
      · rw [List.foldl_cons, hother j hj, get?_insert, if_pos rfl]
      · exact hmem e he
    · intro k hk
      simp only [List.map_cons, List.mem_cons, not_or] at hk
      rw [List.foldl_cons, hother k hk.2, get?_insert, if_neg hk.1]

theorem length_ofList [LT κ] [DecidableLT κ] {entries : List (κ × ν)}
    (distinct : (entries.map Prod.fst).Nodup) :
    (ofList entries).length = entries.length := by
  have h := (foldl_insert_spec (t := []) distinct (fun _ _ => rfl)).1
  rwa [List.length_nil, Nat.zero_add] at h

theorem get?_ofList [LT κ] [DecidableLT κ] {entries : List (κ × ν)}
    (distinct : (entries.map Prod.fst).Nodup) {e : κ × ν} (he : e ∈ entries) :
    (ofList entries).get? e.1 = some e.2 :=
  (foldl_insert_spec (t := []) distinct (fun _ _ => rfl)).2.1 e he

end Entries

theorem ascending_map {κ ν : Type} [LT κ] {μ : Type} {t : Table κ ν} (ht : t.Ascending)
    (f : ν → μ) :
    Ascending (t.map (fun e => (e.1, f e.2)) : Table κ μ) := List.pairwise_map.mpr ht

section Order

variable {κ ν : Type} [LT κ] [DecidableLT κ] [DecidableEq κ] [LE κ] [Std.IsLinearOrder κ]
  [Std.LawfulOrderLT κ]

omit [DecidableLT κ] [Std.IsLinearOrder κ] in
theorem get?_of_mem {t : Table κ ν} (ht : t.Ascending) {k : κ} {v : ν} (h : (k, v) ∈ t) :
    t.get? k = some v := by
  induction t with
  | nil => simp at h
  | cons e t ih =>
    obtain ⟨j, w⟩ := e
    obtain ⟨hj, ht⟩ := List.pairwise_cons.mp ht
    rcases List.mem_cons.mp h with he | hmem
    · simp only [Prod.mk.injEq] at he
      simp [get?, he]
    · have hne : k ≠ j := (Std.ne_of_lt (hj (k, v) hmem)).symm
      simpa [get?, hne] using ih ht hmem

omit [DecidableLT κ] [LE κ] [Std.IsLinearOrder κ] [Std.LawfulOrderLT κ] in
theorem get?_tail_eq_none {t : Table κ ν} {j k : κ} {w : ν} (ht : Ascending ((j, w) :: t))
    (h : ¬j < k) : t.get? k = none := by
  refine get?_eq_none_iff.mpr ?_
  rintro e he rfl
  exact h ((List.pairwise_cons.mp ht).1 e he)

omit [DecidableLT κ] in
/-- Two tables in order with the same values under the same keys are one table. -/
theorem eq_of_get?_eq {s t : Table κ ν} (hs : s.Ascending) (ht : t.Ascending)
    (h : ∀ k, s.get? k = t.get? k) : s = t := by
  induction s generalizing t with
  | nil =>
    cases t with
    | nil => rfl
    | cons e t => simpa [get?] using h e.1
  | cons e s ih =>
    obtain ⟨j, w⟩ := e
    cases t with
    | nil => simpa [get?] using h j
    | cons e t =>
      obtain ⟨k, x⟩ := e
      -- the smaller of the two first keys would be missing in the other table
      have hjk : j = k := by
        rcases Std.lt_trichotomy j k with hlt | heq | hlt
        · have hj := h j
          simp [get?, Std.ne_of_lt hlt, get?_tail_eq_none ht (Std.not_gt_of_lt hlt)] at hj
        · exact heq
        · have hk := h k
          simp [get?, Std.ne_of_lt hlt, get?_tail_eq_none hs (Std.not_gt_of_lt hlt)] at hk
      subst hjk
      have hwx : w = x := by simpa [get?] using h j
      have hrest : s = t := by
        refine ih (List.pairwise_cons.mp hs).2 (List.pairwise_cons.mp ht).2 ?_
        intro k
        by_cases hkj : k = j
        · subst hkj
          rw [get?_tail_eq_none hs Std.lt_irrefl, get?_tail_eq_none ht Std.lt_irrefl]
        · simpa [get?, hkj] using h k
      rw [hwx, hrest]

theorem ascending_insert {t : Table κ ν} (ht : t.Ascending) (k : κ) (v : ν) :
    (t.insert k v).Ascending := by
  induction t with
  | nil => simp [insert, Ascending]
  | cons e t ih =>
    obtain ⟨j, w⟩ := e
    obtain ⟨hj, ht'⟩ := List.pairwise_cons.mp ht
    unfold insert
    split
    · rename_i hkj
      subst hkj
      exact List.pairwise_cons.mpr ⟨hj, ht'⟩
    · split
      · rename_i hlt
        refine List.pairwise_cons.mpr ⟨?_, ht⟩
        intro e he
        rcases List.mem_cons.mp he with rfl | he
        · exact hlt
        · exact Std.lt_trans hlt (hj e he)
      · rename_i hne hlt
        have hjk : j < k := (Std.lt_trichotomy j k).resolve_right (by simp [Ne.symm hne, hlt])
        refine List.pairwise_cons.mpr ⟨?_, ih ht'⟩
        intro e he
        rcases mem_insert he with rfl | he
        · exact hjk
        · exact hj e he

omit [DecidableLT κ] [DecidableEq κ] [LE κ] [Std.IsLinearOrder κ] [Std.LawfulOrderLT κ] in
theorem ascending_filterMap_values {μ : Type} {t : Table κ ν} (ht : t.Ascending) {key : ν → κ}
    (filed : ∀ e ∈ t, key e.2 = e.1) {f : ν → Option (κ × μ)}
    (keyed : ∀ v x, f v = some x → x.1 = key v) :
    Ascending ((values t).filterMap f : Table κ μ) := by
  rw [Ascending, values, List.pairwise_filterMap, List.pairwise_map]
  refine ht.imp_of_mem ?_
  intro a b ha hb hlt x hx y hy
  rw [keyed _ _ hx, keyed _ _ hy, filed a ha, filed b hb]
  exact hlt

omit [DecidableLT κ] [Std.IsLinearOrder κ] in
/-- Of what is listed for each value, in the order of the table, what belongs to a key is listed for
the value stored under it. -/
theorem filter_flatMap_values {μ : Type} {t : Table κ ν} (ht : t.Ascending) {key : ν → κ}
    (filed : ∀ e ∈ t, key e.2 = e.1) {tag : μ → κ} {g : ν → List μ}
    (tagged : ∀ v, ∀ x ∈ g v, tag x = key v) (k : κ) :
    ((values t).flatMap g).filter (fun x => tag x = k) = ((t.get? k).map g).getD [] := by
  induction t with
  | nil => rfl
  | cons e t ih =>
    obtain ⟨j, w⟩ := e
    obtain ⟨hj, ht⟩ := List.pairwise_cons.mp ht
    have hw : key w = j := filed (j, w) List.mem_cons_self
    have hrest := ih ht (fun e he => filed e (List.mem_cons_of_mem _ he))
    have hcons : values ((j, w) :: t) = w :: values t := rfl
    rw [hcons, List.flatMap_cons, List.filter_append, hrest]
    by_cases hkj : k = j
    · subst hkj
      have hfree : get? t k = none :=
        get?_eq_none_iff.mpr (fun e he => (Std.ne_of_lt (hj e he)).symm)
      have hall : (g w).filter (fun x => tag x = k) = g w := by
        rw [List.filter_eq_self]
        intro x hx
        simp [tagged w x hx, hw]
      simp [get?, hfree, hall]
    · have hnone : (g w).filter (fun x => tag x = k) = [] := by
        rw [List.filter_eq_nil_iff]
        intro x hx
        simp [tagged w x hx, hw, Ne.symm hkj]
      simp [get?, hkj, hnone]

theorem insert_of_forall_lt {t : Table κ ν} {k : κ} (h : ∀ e ∈ t, e.1 < k) (v : ν) :
    t.insert k v = t ++ [(k, v)] := by
  induction t with
  | nil => rfl
  | cons e t ih =>
    obtain ⟨j, w⟩ := e
    have hjk : j < k := h (j, w) List.mem_cons_self
    have hne : k ≠ j := (Std.ne_of_lt hjk).symm
    have hlt : ¬k < j := fun hkj => Std.lt_irrefl (Std.lt_trans hjk hkj)
    simpa [insert, hne, hlt] using ih (fun e he => h e (List.mem_cons_of_mem _ he))

theorem ascending_ofList (entries : List (κ × ν)) : (ofList entries).Ascending := by
  have hfold : ∀ (entries : List (κ × ν)) (t : Table κ ν), t.Ascending →
      Ascending (entries.foldl (fun t e => t.insert e.1 e.2) t) := by
    intro entries
    induction entries with
    | nil => exact fun t ht => ht
    | cons e entries ih => exact fun t ht => ih _ (ascending_insert ht e.1 e.2)
  exact hfold entries [] List.Pairwise.nil

theorem ofList_of_ascending {entries : Table κ ν} (h : entries.Ascending) :
    ofList entries = entries := by
  have hfold : ∀ entries t : Table κ ν, Ascending (t ++ entries) →
      entries.foldl (fun t e => t.insert e.1 e.2) t = t ++ entries := by
    intro entries
    induction entries with
    | nil => exact fun t _ => (List.append_nil t).symm
    | cons e entries ih =>
      intro t ht
      have hlt : ∀ e' ∈ t, e'.1 < e.1 :=
        fun e' he' => (List.pairwise_append.mp ht).2.2 e' he' e List.mem_cons_self
      rw [List.foldl_cons, insert_of_forall_lt hlt, ih _ (by simpa using ht), List.append_assoc,
        List.singleton_append]
  exact hfold entries [] h

end Order

section Keys

variable {κ ν : Type} [LT κ] [DecidableLT κ] [DecidableEq κ]

theorem keys_insert (t : Table κ ν) (k : κ) (v : ν) : (t.insert k v).keys = insertKey t.keys k := by
  induction t with
  | nil => rfl
  | cons e t ih =>
    obtain ⟨j, w⟩ := e
    simp only [keys] at ih ⊢
    simp only [insert, List.map_cons, insertKey]
    split
    · rename_i hkj
      simp [hkj]
    · split
      · rfl
      · rw [List.map_cons, ih]

theorem keys_ofList (entries : List (κ × ν)) :
    (ofList entries).keys = ascendingKeys (entries.map Prod.fst) := by
  have hfold : ∀ (entries : List (κ × ν)) (t : Table κ ν),
      (entries.foldl (fun t e => t.insert e.1 e.2) t).keys =
        (entries.map Prod.fst).foldl insertKey t.keys := by
    intro entries
    induction entries with
    | nil => exact fun t => rfl
    | cons e entries ih =>
      intro t
      rw [List.foldl_cons, ih, keys_insert, List.map_cons, List.foldl_cons]
  exact hfold entries []

/-- Keys are put in order as the entries of a table are. -/
theorem ascendingKeys_eq (l : List κ) :
    ascendingKeys l = (ofList (l.map (fun k => (k, ())))).keys := by
  rw [keys_ofList, List.map_map]
  exact congrArg ascendingKeys (List.map_id l).symm

variable [LE κ] [Std.IsLinearOrder κ] [Std.LawfulOrderLT κ]

theorem pairwise_ascendingKeys (l : List κ) : (ascendingKeys l).Pairwise (· < ·) := by
  rw [ascendingKeys_eq, keys, List.pairwise_map]
  exact ascending_ofList _

theorem ascendingKeys_of_pairwise {l : List κ} (h : l.Pairwise (· < ·)) : ascendingKeys l = l := by
  have hascending : Ascending (l.map (fun k => (k, ()))) := List.pairwise_map.mpr h
  rw [ascendingKeys_eq, ofList_of_ascending hascending, keys, List.map_map]
  exact List.map_id l

end Keys

end Charter.Table
