import Charter.Check
import Charter.Provision

/-! # Writing along a path

A write under a path decides what is read on and behind the path, and nothing beside it. What it
leaves of the value under another path depends on which of the two paths is a prefix of the
other. -/

namespace Charter.Provision

variable {j j' v : Json} {s : String} {path rest other : List String}

theorem writePath?_cons_eq_some_iff : writePath? j (s :: path) v = some j' ↔
    ∃ members child, j = .obj members ∧
      writePath? ((Table.get? members s).getD emptyObject) path v = some child ∧
      j' = .obj (Table.insert members s child) := by
  cases j with
  | obj members =>
    have hwrite : writePath? (.obj members) (s :: path) v =
        (writePath? ((Table.get? members s).getD emptyObject) path v).map
          (fun child => .obj (Table.insert members s child)) := by
      cases path <;> simp [writePath?]
    simp only [hwrite, Option.map_eq_some_iff, Json.obj.injEq]
    constructor
    · rintro ⟨child, hchild, rfl⟩
      exact ⟨members, child, rfl, hchild, rfl⟩
    · rintro ⟨_, child, rfl, hchild, rfl⟩
      exact ⟨child, hchild, rfl⟩
  | null | bool | num | str | arr | unfit => simp [writePath?]

theorem read?_getD (x : Option Json) (s : String) (path : List String) :
    read? (x.getD emptyObject) (s :: path) = x.bind (fun child => read? child (s :: path)) := by
  cases x <;> rfl

theorem read?_of_writePath? (h : writePath? j path v = some j') (rest : List String) :
    read? j' (path ++ rest) = read? v rest := by
  induction path generalizing j j' with
  | nil =>
    simp only [writePath?, Option.some.injEq] at h
    rw [List.nil_append, h]
  | cons s path ih =>
    obtain ⟨members, child, rfl, hchild, rfl⟩ := writePath?_cons_eq_some_iff.mp h
    simp only [List.cons_append, read?, Json.get?, Table.get?_insert, if_true, Option.bind_some]
    exact ih hchild

/-- On the way of a write the rest of it is written into what stands there. -/
theorem read?_of_writePath?_append (h : writePath? j (path ++ rest) v = some j') :
    ∃ child, writePath? ((read? j path).getD emptyObject) rest v = some child ∧
      read? j' path = some child := by
  induction path generalizing j j' with
  | nil => exact ⟨j', h, rfl⟩
  | cons s path ih =>
    obtain ⟨members, child, rfl, hchild, rfl⟩ := writePath?_cons_eq_some_iff.mp h
    obtain ⟨inner, hinner, hread⟩ := ih hchild
    refine ⟨inner, ?_, ?_⟩
    · rw [← hinner]
      cases path with
      | nil =>
        simp only [read?, Json.get?, Option.getD_some]
        cases Table.get? members s <;> rfl
      | cons t path => rw [read?_getD, read?, Json.get?]
    · simpa [read?, Json.get?, Table.get?_insert] using hread

theorem read?_of_writePath?_apart (h : writePath? j path v = some j') (behind : ¬path <+: other)
    (onTheWay : ¬other <+: path) : read? j' other = read? j other := by
  induction path generalizing j j' other with
  | nil => exact absurd List.nil_prefix behind
  | cons s path ih =>
    obtain ⟨members, child, rfl, hchild, rfl⟩ := writePath?_cons_eq_some_iff.mp h
    cases other with
    | nil => exact absurd List.nil_prefix onTheWay
    | cons t other =>
      simp only [read?, Json.get?, Table.get?_insert]
      by_cases hts : t = s
      · subst hts
        rw [List.cons_prefix_cons] at behind onTheWay
        simp only [true_and] at behind onTheWay
        rw [if_pos rfl, Option.bind_some, ih hchild behind onTheWay]
        cases other with
        | nil => exact absurd List.nil_prefix onTheWay
        | cons u other => exact read?_getD ..
      · rw [if_neg hts]

/-- Writing a value under a path leaves what is read under another one: the paths are apart, or the
value brings there what stood there before, or it stands there already. -/
def Spares (j : Json) (path : List String) (v : Json) (other : List String) : Prop :=
  (¬path <+: other ∧ ¬other <+: path) ∨
    (∃ rest, other = path ++ rest ∧ read? v rest = read? j other) ∨
    ∃ rest old, path = other ++ rest ∧ read? j other = some old ∧ writePath? old rest v = some old

theorem read?_eq_iff_spares (h : writePath? j path v = some j') (other : List String) :
    read? j' other = read? j other ↔ Spares j path v other := by
  by_cases behind : path <+: other
  · obtain ⟨rest, rfl⟩ := behind
    rw [read?_of_writePath? h]
    constructor
    · intro hv
      exact .inr (.inl ⟨rest, rfl, hv⟩)
    · rintro (⟨hapart, -⟩ | ⟨rest', heq, hv⟩ | ⟨rest', old, heq, hold, hwrite⟩)
      · exact absurd (List.prefix_append path rest) hapart
      · rw [List.append_cancel_left heq] at hv ⊢
        exact hv
      · have hnil : rest = [] ∧ rest' = [] := by
          rw [List.append_assoc] at heq
          exact List.append_eq_nil_iff.mp (List.self_eq_append_right.mp heq)
        obtain ⟨rfl, rfl⟩ := hnil
        simp only [writePath?, Option.some.injEq] at hwrite
        rw [hold, hwrite, read?]
  · by_cases onTheWay : other <+: path
    · obtain ⟨rest, rfl⟩ := onTheWay
      obtain ⟨child, hchild, hread⟩ := read?_of_writePath?_append h
      constructor
      · intro heq
        rw [hread] at heq
        rw [← heq, Option.getD_some] at hchild
        exact .inr (.inr ⟨rest, child, rfl, heq.symm, hchild⟩)
      · rintro (⟨-, hapart⟩ | ⟨rest', heq, -⟩ | ⟨rest', old, heq, hold, hwrite⟩)
        · exact absurd (List.prefix_append other rest) hapart
        · exact absurd ⟨rest', heq.symm⟩ behind
        · rw [← List.append_cancel_left heq] at hwrite
          rw [hold, Option.getD_some, hwrite] at hchild
          rw [hread, hold, hchild]
    · refine iff_of_true (read?_of_writePath?_apart h behind onTheWay) (.inl ⟨behind, onTheWay⟩)

theorem read?_append (j : Json) (front rest : List String) :
    read? j (front ++ rest) = (read? j front).bind (fun child => read? child rest) := by
  induction front generalizing j with
  | nil => rfl
  | cons s front ih =>
    simp only [List.cons_append, read?, Option.bind_assoc]
    congr 1
    funext child
    exact ih child

/-- What a write under a path makes of a configuration: the value stands at the end of the path,
whatever is beside the path stands as before, and on the way stand objects whose members are those
that stood there and the next segment. -/
structure Rewrites (before : Json) (path : List String) (v : Json) (after : Json) : Prop where
  written : read? after path = some v
  beside : ∀ other, ¬path <+: other → ¬other <+: path → read? after other = read? before other
  onTheWay : ∀ front s rest, path = front ++ s :: rest →
    ∃ members, read? after front = some (.obj members) ∧
    (Table.get? members s).isSome = true ∧ ∀ name, name ≠ s →
      Table.get? members name = read? before (front ++ [name])

theorem rewrites_of_writePath? (h : writePath? j path v = some j') : Rewrites j path v j' where
  written := by
    have hread := read?_of_writePath? h []
    rwa [List.append_nil] at hread
  beside _ behind onTheWay := read?_of_writePath?_apart h behind onTheWay
  onTheWay := by
    rintro front s rest rfl
    obtain ⟨child, hchild, hread⟩ := read?_of_writePath?_append h
    obtain ⟨members, inner, hmembers, -, rfl⟩ := writePath?_cons_eq_some_iff.mp hchild
    refine ⟨_, hread, by simp [Table.get?_insert], ?_⟩
    intro name hname
    rw [Table.get?_insert, if_neg hname, read?_append]
    cases hfront : read? j front with
    | none =>
      -- nothing stood here, so the write began with an empty object
      rw [hfront] at hmembers
      cases hmembers
      rfl
    | some old =>
      rw [hfront] at hmembers
      obtain rfl : old = .obj members := hmembers
      simp [read?, Json.get?]

theorem exists_writePath?_emptyObject (path : List String) (v : Json) :
    ∃ written, writePath? emptyObject path v = some written := by
  induction path with
  | nil => exact ⟨v, rfl⟩
  | cons s path ih =>
    obtain ⟨child, hchild⟩ := ih
    exact ⟨_, writePath?_cons_eq_some_iff.mpr ⟨[], child, rfl, hchild, rfl⟩⟩

theorem barred?_emptyObject (key : String) : barred? emptyObject key = none := by
  have hroot : emptyObject.isObject = true := rfl
  rw [barred?, if_pos hroot]
  generalize Text.segments key = path
  cases path with
  | nil => rfl
  | cons s path => cases path <;> rfl

end Charter.Provision
