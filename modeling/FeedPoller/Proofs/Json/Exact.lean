/-
Data that comes back as it was.

Data that was read can be read again wherever there are levels enough for it.  What comes of the
second reading is what was there, but for one thing that can be lost: a double is printed in
the fewest digits that name it, and the reader, who rounds twice, need not take them for the double
that was printed.  Whole numbers and texts come back in any case, and so does the order of names.

So data comes back exactly if all of its doubles do.  The induction is on the data, with the
levels left open; at an object the names come back whatever their values do, and since they were
sorted they are put together in the order in which they stand.
-/
import FeedPoller.Proofs.Json.Held

namespace FeedPoller.Json.Value

/-! ### The doubles in data -/

mutual

/-- The doubles in a value, in the order in which they stand. -/
def doubles : Value → List Binary64
  | .number (.float x) => [x]
  | .array vs => itemDoubles vs
  | .object fs => fieldDoubles fs
  | _ => []

def itemDoubles : List Value → List Binary64
  | [] => []
  | v :: vs => v.doubles ++ itemDoubles vs

def fieldDoubles : List (String × Value) → List Binary64
  | [] => []
  | (_, v) :: fs => v.doubles ++ fieldDoubles fs

end

theorem itemDoubles_eq_flatMap (vs : List Value) : itemDoubles vs = vs.flatMap doubles := by
  induction vs with
  | nil => rfl
  | cons v vs ih => rw [itemDoubles, ih, List.flatMap_cons]

theorem fieldDoubles_eq_flatMap (fs : List (String × Value)) :
    fieldDoubles fs = fs.flatMap fun f => f.2.doubles := by
  induction fs with
  | nil => rfl
  | cons f fs ih => rw [fieldDoubles, ih, List.flatMap_cons]

/-! ### The second reading -/

variable {depth : Nat}

theorem ofItems_documents_self_iff {vs : List Value} : ofItems depth (documents vs) = some vs ↔
    ∀ v ∈ vs, ofDocument depth v.document = some v := by
  induction vs with
  | nil => simp [documents, ofItems]
  | cons v vs ih =>
      rw [documents, ofItems, List.forall_mem_cons, ← ih]
      cases ofDocument depth v.document with
      | none => simp
      | some w => cases ofItems depth (documents vs) <;> simp

/-- Names are read as they are printed. -/
theorem names_ofDocumentFields {fs gs : List (String × Value)}
    (h : ofDocumentFields depth (documentFields fs) = some gs) :
    gs.map Prod.fst = fs.map Prod.fst := by
  induction fs generalizing gs with
  | nil => rw [← Option.some.inj h]
  | cons f fs ih =>
      rw [documentFields, ofDocumentFields, Option.bind_eq_bind, Option.bind_some] at h
      obtain ⟨first, -, h⟩ := Option.bind_eq_some_iff.mp h
      obtain ⟨rest, hrest, h⟩ := Option.bind_eq_some_iff.mp h
      rw [← Option.some.inj h, List.map_cons, List.map_cons, ih hrest]

theorem ofDocumentFields_documentFields_self_iff {fs : List (String × Value)} :
    ofDocumentFields depth (documentFields fs) = some fs ↔
      ∀ f ∈ fs, ofDocument depth f.2.document = some f.2 := by
  induction fs with
  | nil => simp [documentFields, ofDocumentFields]
  | cons f fs ih =>
      obtain ⟨name, v⟩ := f
      rw [documentFields, ofDocumentFields, List.forall_mem_cons, ← ih]
      cases ofDocument depth v.document with
      | none => simp
      | some w => cases ofDocumentFields depth (documentFields fs) <;> simp

/-- Data that is neat comes back exactly if all its doubles do. -/
theorem Neat.ofDocument_self_iff {v : Value} (h : v.Neat) : ∀ depth, v.depth ≤ depth →
    (ofDocument depth v.document = some v ↔ ∀ x ∈ v.doubles, (Number.float x).Lossless) := by
  induction h with
  | null | bool b | string s => intro depth _; simp [document, Value.ofDocument, doubles]
  | @number n h =>
      intro depth _
      cases n with
      | integer n =>
          rw [document, Number.literal_integer, Value.ofDocument, Number.ofLiteral_wholeLiteral h]
          simp [doubles]
      | float x =>
          have hspelled := h.readable.1
          simp [document, Value.ofDocument, doubles, Number.Lossless, hspelled]
  | @array vs h ih =>
      intro depth hdepth
      rw [Value.depth] at hdepth
      obtain ⟨depth, rfl⟩ := Nat.exists_eq_succ_of_ne_zero (Nat.ne_zero_of_lt hdepth)
      have hle := itemDepth_le_iff.mp (Nat.le_of_succ_le_succ hdepth)
      have hself : ofDocument (depth + 1) (Value.array vs).document = some (.array vs) ↔
          ofItems depth (documents vs) = some vs := by
        rw [document, Value.ofDocument]
        cases ofItems depth (documents vs) <;> simp
      rw [hself, ofItems_documents_self_iff, doubles, itemDoubles_eq_flatMap,
        List.forall_mem_flatMap]
      exact forall₂_congr fun v hv => ih v hv depth (hle v hv)
  | @object fs hs h ih =>
      intro depth hdepth
      rw [Value.depth] at hdepth
      obtain ⟨depth, rfl⟩ := Nat.exists_eq_succ_of_ne_zero (Nat.ne_zero_of_lt hdepth)
      have hle := fieldDepth_le_iff.mp (Nat.le_of_succ_le_succ hdepth)
      have hself : ofDocument (depth + 1) (Value.object fs).document = some (.object fs) ↔
          ofDocumentFields depth (documentFields fs) = some fs := by
        rw [document, Value.ofDocument]
        cases hread : ofDocumentFields depth (documentFields fs) with
        | none => simp
        | some gs =>
            have hsorted : Fields.Sorted gs := by
              rw [Fields.sorted_iff_names, names_ofDocumentFields hread, ← Fields.sorted_iff_names]
              exact hs
            simp [Fields.ofList_of_sorted hsorted]
      rw [hself, ofDocumentFields_documentFields_self_iff, doubles, fieldDoubles_eq_flatMap,
        List.forall_mem_flatMap]
      exact forall₂_congr fun f hf => ih f hf depth (hle f hf)

/-- For 1881844080311134e-23, as it is read, 1.8818440803111342e-8 is printed: the next double. -/
example : (Number.ofLiteral ⟨false, [1, 8, 8, 1, 8, 4, 4, 0, 8, 0, 3, 1, 1, 1, 3, 4], none,
    some (true, [2, 3])⟩).map (fun n => decide n.Lossless) = some false := by
  decide +kernel

end FeedPoller.Json.Value
