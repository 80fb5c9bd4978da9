import Charter.Json.Shape
import Charter.Proofs.Json.Reader

/-! # Written data read back

What is read from the document of something is the thing itself: for words, names, lists, tables and
what may be missing, and for structures field by field. The numbers in such a document are integers,
so it is read back from its text. -/

namespace Charter.Json

variable {α β : Type}

theorem mapM_eq_some_map {f : α → Option β} {g : α → β} {l : List α}
    (h : ∀ a ∈ l, f a = some (g a)) :
    l.mapM f = some (l.map g) := by
  induction l with
  | nil => rfl
  | cons a l ih =>
    rw [List.forall_mem_cons] at h
    simp [h.1, ih h.2]

theorem filter_eq_singleton {members : List (String × Json)}
    (distinct : (members.map Prod.fst).Nodup) {m : String × Json} (hm : m ∈ members) :
    members.filter (fun n => n.1 = m.1) = [m] := by
  induction members with
  | nil => cases hm
  | cons n members ih =>
    rw [List.map_cons, List.nodup_cons] at distinct
    obtain ⟨hn, distinct⟩ := distinct
    rcases List.mem_cons.mp hm with rfl | hm
    · have hnone : members.filter (fun n => n.1 = m.1) = [] := by
        rw [List.filter_eq_nil_iff]
        intro n hmem heq
        exact hn (of_decide_eq_true heq ▸ List.mem_map_of_mem hmem)
      rw [List.filter_cons_of_pos (by simp), hnone]
    · have hne : n.1 ≠ m.1 := fun heq => hn (heq ▸ List.mem_map_of_mem hm)
      rw [List.filter_cons_of_neg (by simpa using hne), ih distinct hm]

/-- An object that has exactly the fields of a structure, each once, gives them in their order. -/
theorem fields?_obj {names : List String} {members : List (String × Json)}
    (hnames : members.map Prod.fst = names) (distinct : names.Nodup) :
    fields? names (.obj members) = some (members.map (fun m => some m.2)) := by
  subst hnames
  rw [fields?, List.mapM_map]
  refine mapM_eq_some_map ?_
  intro m hm
  simp [filter_eq_singleton distinct hm]

theorem bind_fields?_obj {names : List String} {members : List (String × Json)}
    {read : List (Option Json) → Option α} (hnames : members.map Prod.fst = names)
    (distinct : names.Nodup) :
    (fields? names (.obj members)).bind read = read (members.map (fun m => some m.2)) := by
  rw [fields?_obj hnames distinct, Option.bind_some]

-- Not proved by `rfl`: unfolding the two sides would run the reader on a number that is not known.
@[simp] theorem needed?_some (read : Json → Option α) (j : Json) :
    needed? read (some j) = read j := by
  rw [needed?, Option.bind_some]

/-- What may be missing is written as `null`, so nothing that is there may be. -/
theorem optional?_ofOption {read : Json → Option α} {write : α → Json} {x : Option α}
    (h : ∀ a ∈ x, write a ≠ .null ∧ read (write a) = some a) :
    optional? read (some (ofOption write x)) = some x := by
  cases x with
  | none => rfl
  | some a =>
    obtain ⟨hnull, hread⟩ := h a rfl
    rw [ofOption, optional?, hread, Option.map_some]
    simpa using hnull

@[simp] theorem text?_str (s : String) : text? (.str s) = some s := rfl

@[simp] theorem truth?_bool (b : Bool) : truth? (.bool b) = some b := rfl

theorem natBelow?_ofNat {bound n : Nat} (h : n < bound) : natBelow? bound (ofNat n) = some n := by
  rw [ofNat, natBelow?, if_pos (by omega), Int.toNat_natCast]

@[simp] theorem word64?_ofNat (w : UInt64) : word64? (ofNat w.toNat) = some w := by
  rw [word64?, natBelow?_ofNat w.toNat_lt_size, Option.map_some, UInt64.ofNat_toNat]

@[simp] theorem word32?_ofNat (w : UInt32) : word32? (ofNat w.toNat) = some w := by
  rw [word32?, natBelow?_ofNat w.toNat_lt_size, Option.map_some, UInt32.ofNat_toNat]

@[simp] theorem byte?_ofNat (w : UInt8) : byte? (ofNat w.toNat) = some w := by
  rw [byte?, natBelow?_ofNat w.toNat_lt_size, Option.map_some, UInt8.ofNat_toNat]

theorem choice?_str {lenient : Bool} {all : List α} {name : α → String} {a : α} (ha : a ∈ all)
    (distinct : ∀ b ∈ all, name b = name a → b = a) :
    choice? lenient all name (.str (name a)) = some a := by
  cases h : all.find? (fun b => name b = name a) with
  | none => exact absurd (decide_eq_true rfl) (List.find?_eq_none.mp h a ha)
  | some b =>
    rw [choice?, h, distinct b (List.mem_of_find?_eq_some h) (by simpa using List.find?_some h)]

theorem list?_ofList {read : Json → Option α} {write : α → Json} {l : List α}
    (h : ∀ a ∈ l, read (write a) = some a) :
    list? read (ofList write l) = some l := by
  rw [ofList, list?, List.mapM_map, mapM_eq_some_map (f := read ∘ write) h, List.map_id']

theorem table?_ofTable {read : Json → Option α} {write : α → Json} {t : Table String α}
    (ascending : t.Ascending) (h : ∀ a, read (write a) = some a) :
    table? read (ofTable write t) = some t := by
  rw [ofTable, table?, List.mapM_map, mapM_eq_some_map (g := fun e => e) (fun e _ => by simp [h]),
    List.map_id', Option.map_some, Table.ofList_of_ascending ascending]

theorem areIntegral_iff {items : List Json} :
    areIntegral items = true ↔ ∀ j ∈ items, j.isIntegral = true := by
  induction items with
  | nil => simp [areIntegral]
  | cons j items ih => simp [areIntegral, ih]

theorem haveIntegral_iff {members : List (String × Json)} :
    haveIntegral members = true ↔ ∀ m ∈ members, m.2.isIntegral = true := by
  induction members with
  | nil => simp [haveIntegral]
  | cons m members ih => simp [haveIntegral, ih]

theorem isIntegral_ofNat {n : Nat} (h : n < UInt64.size) : (ofNat n).isIntegral = true := by
  rw [UInt64.size] at h
  rw [ofNat, isIntegral, decide_eq_true_eq, Number.IsWord]
  omega

@[simp] theorem isIntegral_word64 (w : UInt64) : (ofNat w.toNat).isIntegral = true :=
  isIntegral_ofNat w.toNat_lt_size

@[simp] theorem isIntegral_word32 (w : UInt32) : (ofNat w.toNat).isIntegral = true :=
  isIntegral_ofNat (Nat.lt_trans w.toNat_lt_size (by decide))

@[simp] theorem isIntegral_byte (w : UInt8) : (ofNat w.toNat).isIntegral = true :=
  isIntegral_ofNat (Nat.lt_trans w.toNat_lt_size (by decide))

@[simp] theorem isIntegral_ofList {write : α → Json} {l : List α} :
    (ofList write l).isIntegral = true ↔ ∀ a ∈ l, (write a).isIntegral = true := by
  rw [ofList, isIntegral, areIntegral_iff, List.forall_mem_map]

@[simp] theorem isIntegral_ofTable {write : α → Json} {t : Table String α} :
    (ofTable write t).isIntegral = true ↔ ∀ e ∈ t, (write e.2).isIntegral = true := by
  rw [ofTable, isIntegral, haveIntegral_iff, List.forall_mem_map]

@[simp] theorem isIntegral_ofOption {write : α → Json} {x : Option α} :
    (ofOption write x).isIntegral = true ↔ ∀ a ∈ x, (write a).isIntegral = true := by
  cases x <;> simp [ofOption, isIntegral]

end Charter.Json
