/-! # Tables

A table is a list of entries in ascending order of distinct keys. It is the shape of everything that
is looked up by name or number: the seats of a panel, the members of a JSON object, the proposals of
a docket. A set of keys is kept the same way, as an ascending list without repetition. -/

namespace Charter

/-- Entries, meant to be in ascending order of distinct keys. -/
abbrev Table (κ ν : Type) := List (κ × ν)

namespace Table

variable {κ ν : Type} [LT κ] [DecidableLT κ] [DecidableEq κ]

def Ascending (t : Table κ ν) : Prop := t.Pairwise (fun a b => a.1 < b.1)

def get? : Table κ ν → κ → Option ν
  | [], _ => none
  | (k', v) :: t, k => if k = k' then some v else get? t k

/-- Puts a value under a key: in the key's place if it is there, before the first larger key if it
is not. -/
def insert : Table κ ν → κ → ν → Table κ ν
  | [], k, v => [(k, v)]
  | (k', v') :: t, k, v =>
    if k = k' then (k, v) :: t
    else if k < k' then (k, v) :: (k', v') :: t
    else (k', v') :: insert t k v

/-- The table of these entries; of two entries with one key the later counts. -/
def ofList (entries : List (κ × ν)) : Table κ ν :=
  entries.foldl (fun t e => t.insert e.1 e.2) []

def keys (t : Table κ ν) : List κ := t.map Prod.fst

def values (t : Table κ ν) : List ν := t.map Prod.snd

/-- Looking up a key after a write gives the value written, and every other key as before. -/
theorem get?_insert (t : Table κ ν) (k k' : κ) (v : ν) :
    (t.insert k v).get? k' = if k' = k then some v else t.get? k' := by
  induction t with
  | nil => simp [insert, get?]
  | cons e t ih =>
    obtain ⟨j, w⟩ := e
    by_cases hkj : k = j
    · by_cases h : k' = j <;> simp [insert, get?, hkj, h]
    · by_cases hlt : k < j
      · simp [insert, get?, hkj, hlt]
      · by_cases h : k' = j
        · subst h; simp [insert, get?, hkj, hlt, Ne.symm hkj]
        · simp [insert, get?, hkj, hlt, h, ih]

end Table

def insertKey {κ : Type} [LT κ] [DecidableLT κ] [DecidableEq κ] : List κ → κ → List κ
  | [], k => [k]
  | k' :: l, k => if k = k' then k' :: l else if k < k' then k :: k' :: l else k' :: insertKey l k

def ascendingKeys {κ : Type} [LT κ] [DecidableLT κ] [DecidableEq κ] (l : List κ) : List κ :=
  l.foldl insertKey []

/-- The distinct members of a list, each at its first place. -/
def firsts {κ : Type} [DecidableEq κ] : List κ → List κ
  | [] => []
  | k :: l => k :: (firsts l).filter (fun k' => k' ≠ k)

end Charter
