import Charter.Constitution.Document
import Charter.Proofs.Json.Shape

/-! # Constitutions read back

The text of a constitution holds that constitution, whatever its fields are: it is loaded if it is
sound and refused for its first flaw if it is not. What has been loaded once can be kept and loaded
again without change. -/

namespace Charter

open Json (bind_fields?_obj)

@[simp] theorem Composition.ofJson?_toJson (c : Composition) : ofJson? c.toJson = some c := by
  simp [ofJson?, toJson, bind_fields?_obj]

@[simp] theorem Thresholds.ofJson?_toJson (t : Thresholds) : ofJson? t.toJson = some t := by
  simp [ofJson?, toJson, bind_fields?_obj]

@[simp] theorem Timing.ofJson?_toJson (t : Timing) : ofJson? t.toJson = some t := by
  simp [ofJson?, toJson, bind_fields?_obj]

@[simp] theorem Diversity.ofJson?_toJson (d : Diversity) : ofJson? d.toJson = some d := by
  simp [ofJson?, toJson, bind_fields?_obj]

@[simp] theorem Phase.ofJson?_toJson (p : Phase) : ofJson? p.toJson = some p := by
  simp [ofJson?, toJson, bind_fields?_obj]

namespace Constitution

variable {c : Constitution} {l : List String} {j : Json}

/-- Both lists of provisions are sets: they ascend, and no provision occurs twice in one of them. -/
structure HasSets (c : Constitution) : Prop where
  entrenched : c.entrenched.Pairwise (· < ·)
  formulaOnly : c.formulaOnly.Pairwise (· < ·)

theorem provisions?_ofList (h : l.Pairwise (· < ·)) : provisions? (.ofList .str l) = some l := by
  rw [provisions?, Json.list?_ofList (fun s _ => Json.text?_str s), Option.map_some,
    Table.ascendingKeys_of_pairwise h]

theorem pairwise_of_provisions? (h : provisions? j = some l) : l.Pairwise (· < ·) := by
  obtain ⟨keys, -, rfl⟩ := Option.map_eq_some_iff.mp h
  exact Table.pairwise_ascendingKeys keys

theorem ofJson?_toJson (h : c.HasSets) : ofJson? c.toJson = some c := by
  rw [ofJson?, toJson, Option.bind_eq_bind, bind_fields?_obj]
  · simp [provisions?_ofList h.entrenched, provisions?_ofList h.formulaOnly]
  · rfl
  · decide

theorem hasSets_of_ofJson? (h : ofJson? j = some c) : c.HasSets := by
  simp only [ofJson?, Option.bind_eq_bind, Option.bind_eq_some_iff] at h
  obtain ⟨fields, -, h⟩ := h
  split at h
  · simp only [Option.bind_eq_some_iff, Json.needed?] at h
    obtain ⟨entrenched, ⟨_, -, hentrenched⟩, formulaOnly, ⟨_, -, hformula⟩, _, -, _, -, _, -,
      _, -, _, -, heq⟩ := h
    cases heq
    exact ⟨pairwise_of_provisions? hentrenched, pairwise_of_provisions? hformula⟩
  · cases h

theorem isIntegral_toJson (c : Constitution) : c.toJson.isIntegral = true := by
  simp [toJson, Thresholds.toJson, Timing.toJson, Diversity.toJson, Composition.toJson,
    Phase.toJson, Json.isIntegral, Json.haveIntegral]

theorem ofText_text (h : c.HasSets) :
    ofText c.text = match c.check with
      | none => .ok c
      | some flaw => .error (.flawed flaw) := by
  rw [ofText, text, Json.ofText?_pretty c.isIntegral_toJson, Option.bind_some, ofJson?_toJson h]
  cases hcheck : c.check <;> simp only [hcheck]

theorem ofText_eq_ok_iff {t : String} : ofText t = .ok c ↔ (Json.ofText? t).bind ofJson? = some c ∧
    c.check = none := by
  unfold ofText
  constructor
  · intro h
    split at h
    · cases h
    · rename_i d hd
      cases hcheck : d.check with
      | some flaw =>
        rw [hcheck] at h
        cases h
      | none =>
        rw [hcheck] at h
        cases h
        exact ⟨hd, hcheck⟩
  · rintro ⟨hread, hcheck⟩
    simp only [hread, hcheck]

/-- Keeping a constitution and loading it again gives it back, or else the flaw that its check
finds; so loading is idempotent. -/
theorem kept_text_is_loaded :
    (∀ c : Constitution, c.HasSets →
      ofText c.text = match c.check with
        | none => .ok c
        | some flaw => .error (.flawed flaw)) ∧
    ∀ (t : String) (c : Constitution), ofText t = .ok c → ofText c.text = .ok c := by
  refine ⟨fun c h => ofText_text h, ?_⟩
  intro t c h
  obtain ⟨hread, hcheck⟩ := ofText_eq_ok_iff.mp h
  obtain ⟨j, -, hj⟩ := Option.bind_eq_some_iff.mp hread
  rw [ofText_text (hasSets_of_ofJson? hj), hcheck]

def outlandish : Constitution where
  entrenched := ["", "\"\\/\x08\n\x01", "fees", "fees\x7f", "é\u2028", "😀"]
  formulaOnly := ["fees", "😀"]
  thresholds := ⟨100, 1, 255⟩
  timing := ⟨0, 4294967295, 36501⟩
  diversity := ⟨0, 18446744073709551615, 101⟩
  confirmation := ⟨18446744073709551615, 0⟩
  phase := ⟨"\t\u3000", ⟨0, 0⟩, ⟨1, 2⟩, ⟨2, 1⟩⟩

/-- A text with its parts as arrays, its provisions out of order and one of them twice. -/
def terse : String :=
  r#"[["b", "\u0061", "b"], [], [80, 50, 50], [14, 10, 90], [1, 1, 100], [1, 1],
 ["p", [1, 1], [1, 1], [1, 1]]]"#

def plain : Constitution where
  entrenched := ["a", "b"]
  formulaOnly := []
  thresholds := ⟨80, 50, 50⟩
  timing := ⟨14, 10, 90⟩
  diversity := ⟨1, 1, 100⟩
  confirmation := ⟨1, 1⟩
  phase := ⟨"p", ⟨1, 1⟩, ⟨1, 1⟩, ⟨1, 1⟩⟩

theorem kept_text_is_loaded_outlandish :
    (outlandish.HasSets ∧
      ofText outlandish.text = .error (.flawed (.percent .lapseParticipation 255))) ∧
      ofText terse = .ok plain ∧ ofText plain.text = .ok plain := by
  have hsets : outlandish.HasSets := ⟨by decide, by decide⟩
  have hread : (Json.ofText? terse).bind ofJson? = some plain := by decide +kernel
  have hload : ofText terse = .ok plain := ofText_eq_ok_iff.mpr ⟨hread, by decide⟩
  exact ⟨⟨hsets, kept_text_is_loaded.1 outlandish hsets⟩, hload,
    kept_text_is_loaded.2 terse plain hload⟩

end Constitution

end Charter
