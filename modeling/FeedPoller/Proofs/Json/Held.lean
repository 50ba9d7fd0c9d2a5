/-
Data that can be read twice.

Data that was read holds only numbers that there are, its objects have their names sorted, and it
is no deeper than it was allowed to be.  All of this is told by an induction on the levels that are
left: what an array or an object holds is read with one level less, and an object that forgets
all but the last value of a name forgets nothing else.

Such data is printed, and its document can be read again wherever there are levels enough for it.
The converse holds too.  Numbers and texts never stand in the way, so that depth is all that
a second reading can fail for.
-/
import FeedPoller.Proofs.Json.Doubles
import FeedPoller.Proofs.Json.RoundTrip

namespace FeedPoller

namespace Fields

variable {α : Type} {fields : List (String × α)}

theorem mem_ofList {field : String × α} (h : field ∈ ofList fields) : field ∈ fields := by
  have hfold : ∀ (rest sorted : List (String × α)),
      field ∈ rest.foldl (fun sorted f => Fields.insert f.1 f.2 sorted) sorted →
        field ∈ sorted ∨ field ∈ rest := by
    intro rest
    induction rest with
    | nil => exact fun sorted h => Or.inl h
    | cons first rest ih =>
        intro sorted h
        rcases ih _ h with h | h
        · rcases mem_insert h with rfl | h
          · exact Or.inr (by simp)
          · exact Or.inl h
        · exact Or.inr (by simp [h])
  rcases hfold fields [] h with h | h
  · exact absurd h (by simp)
  · exact h

end Fields

namespace Json.Value

/-- A value all of whose numbers there are. -/
inductive Held : Value → Prop where
  | null : Held .null
  | bool (b : Bool) : Held (.bool b)
  | number {n : Number} (h : n.Held) : Held (.number n)
  | string (s : String) : Held (.string s)
  | array {vs : List Value} (h : ∀ v ∈ vs, Held v) : Held (.array vs)
  | object {fs : List (String × Value)} (h : ∀ f ∈ fs, Held f.2) : Held (.object fs)

/-- Data as it is read: all its numbers there are, and names are sorted, each once. -/
inductive Neat : Value → Prop where
  | null : Neat .null
  | bool (b : Bool) : Neat (.bool b)
  | number {n : Number} (h : n.Held) : Neat (.number n)
  | string (s : String) : Neat (.string s)
  | array {vs : List Value} (h : ∀ v ∈ vs, Neat v) : Neat (.array vs)
  | object {fs : List (String × Value)} (hs : Fields.Sorted fs) (h : ∀ f ∈ fs, Neat f.2) :
      Neat (.object fs)

theorem Neat.held {v : Value} (h : v.Neat) : v.Held := by
  induction h with
  | null => exact .null
  | bool b => exact .bool b
  | number h => exact .number h
  | string s => exact .string s
  | array _ ih => exact .array ih
  | object _ _ ih => exact .object ih

theorem Held.spelled {v : Value} (h : v.Held) : v.Spelled := by
  induction h with
  | null => exact .null
  | bool b => exact .bool b
  | number h => exact .number h.readable.1
  | string s => exact .string s
  | array _ ih => exact .array ih
  | object _ ih => exact .object ih

/-! ### Depth -/

variable {depth : Nat}

theorem itemDepth_le_iff {vs : List Value} : itemDepth vs ≤ depth ↔ ∀ v ∈ vs, v.depth ≤ depth := by
  induction vs with
  | nil => simp [itemDepth]
  | cons v vs ih => rw [itemDepth, Nat.max_le, ih, List.forall_mem_cons]

theorem fieldDepth_le_iff {fs : List (String × Value)} :
    fieldDepth fs ≤ depth ↔ ∀ f ∈ fs, f.2.depth ≤ depth := by
  induction fs with
  | nil => simp [fieldDepth]
  | cons f fs ih => rw [fieldDepth, Nat.max_le, ih, List.forall_mem_cons]

/-! ### What is read -/

theorem mem_ofItems {ds : List Document} {vs : List Value} (h : ofItems depth ds = some vs)
    {v : Value}
    (hv : v ∈ vs) : ∃ d, ofDocument depth d = some v := by
  induction ds generalizing vs with
  | nil =>
      obtain rfl : [] = vs := Option.some.inj h
      exact absurd hv (by simp)
  | cons d ds ih =>
      rw [ofItems, Option.bind_eq_bind] at h
      obtain ⟨first, hfirst, h⟩ := Option.bind_eq_some_iff.mp h
      obtain ⟨rest, hrest, h⟩ := Option.bind_eq_some_iff.mp h
      obtain rfl := Option.some.inj h
      rcases List.mem_cons.mp hv with rfl | hv
      · exact ⟨d, hfirst⟩
      · exact ih hrest hv

theorem mem_ofDocumentFields {ds : List (Option String × Document)} {fs : List (String × Value)}
    (h : ofDocumentFields depth ds = some fs) {f : String × Value} (hf : f ∈ fs) :
    ∃ d, ofDocument depth d = some f.2 := by
  induction ds generalizing fs with
  | nil =>
      obtain rfl : [] = fs := Option.some.inj h
      exact absurd hf (by simp)
  | cons d ds ih =>
      rw [ofDocumentFields, Option.bind_eq_bind] at h
      obtain ⟨name, -, h⟩ := Option.bind_eq_some_iff.mp h
      obtain ⟨first, hfirst, h⟩ := Option.bind_eq_some_iff.mp h
      obtain ⟨rest, hrest, h⟩ := Option.bind_eq_some_iff.mp h
      obtain rfl := Option.some.inj h
      rcases List.mem_cons.mp hf with rfl | hf
      · exact ⟨d.2, hfirst⟩
      · exact ih hrest hf

/-- Data that is read is neat, and no deeper than it may be. -/
theorem neat_ofDocument {d : Document} {v : Value} (h : ofDocument depth d = some v) :
    v.Neat ∧ v.depth ≤ depth := by
  induction depth using Nat.strongRecOn generalizing d v with
  | ind depth ih =>
      cases d with
      | null => exact Option.some.inj h ▸ ⟨.null, Nat.zero_le _⟩
      | bool b => exact Option.some.inj h ▸ ⟨.bool b, Nat.zero_le _⟩
      | number l =>
          obtain ⟨n, hn, rfl⟩ := Option.map_eq_some_iff.mp h
          exact ⟨.number (Number.held_ofLiteral hn), Nat.zero_le _⟩
      | string s =>
          obtain ⟨s, -, rfl⟩ := Option.map_eq_some_iff.mp h
          exact ⟨.string s, Nat.zero_le _⟩
      | array items =>
          cases depth with
          | zero => exact absurd h (by simp [ofDocument])
          | succ depth =>
              rw [ofDocument] at h
              obtain ⟨vs, hvs, rfl⟩ := Option.map_eq_some_iff.mp h
              have hitems : ∀ u ∈ vs, u.Neat ∧ u.depth ≤ depth := fun u hu => by
                obtain ⟨d, hd⟩ := mem_ofItems hvs hu
                exact ih depth (Nat.lt_succ_self depth) hd
              refine ⟨.array fun u hu => (hitems u hu).1, ?_⟩
              exact Nat.succ_le_succ (itemDepth_le_iff.mpr fun u hu => (hitems u hu).2)
      | object fields =>
          cases depth with
          | zero => exact absurd h (by simp [ofDocument])
          | succ depth =>
              rw [ofDocument] at h
              obtain ⟨fs, hfs, rfl⟩ := Option.map_eq_some_iff.mp h
              have hfields : ∀ f ∈ Fields.ofList fs, f.2.Neat ∧ f.2.depth ≤ depth := fun f hf => by
                obtain ⟨d, hd⟩ := mem_ofDocumentFields hfs (Fields.mem_ofList hf)
                exact ih depth (Nat.lt_succ_self depth) hd
              refine ⟨.object (Fields.sorted_ofList fs) fun f hf => (hfields f hf).1, ?_⟩
              exact Nat.succ_le_succ (fieldDepth_le_iff.mpr fun f hf => (hfields f hf).2)

/-- Data that is read holds numbers that there are, and is no deeper than it may be. -/
theorem held_ofDocument {d : Document} {v : Value} (h : ofDocument depth d = some v) :
    v.Held ∧ v.depth ≤ depth :=
  (neat_ofDocument h).imp_left Neat.held

/-! ### What can be read -/

theorem ofItems_isSome {ds : List Document} :
    (ofItems depth ds).isSome ↔ ∀ d ∈ ds, (ofDocument depth d).isSome := by
  induction ds with
  | nil => simp [ofItems]
  | cons d ds ih =>
      rw [ofItems, List.forall_mem_cons, ← ih]
      cases ofDocument depth d with
      | none => simp
      | some v =>
          cases hrest : ofItems depth ds with
          | none => simp
          | some vs => simp

theorem ofDocumentFields_isSome {fs : List (String × Value)} :
    (ofDocumentFields depth (documentFields fs)).isSome ↔
      ∀ f ∈ fs, (ofDocument depth f.2.document).isSome := by
  induction fs with
  | nil => simp [documentFields, ofDocumentFields]
  | cons f fs ih =>
      rw [documentFields, ofDocumentFields, List.forall_mem_cons, ← ih]
      cases ofDocument depth f.2.document with
      | none => simp
      | some v =>
          cases hrest : ofDocumentFields depth (documentFields fs) with
          | none => simp
          | some gs => simp

/-- The document of such data can be read exactly if there are levels enough. -/
theorem Held.ofDocument_isSome {v : Value} (h : v.Held) :
    ∀ depth, (ofDocument depth v.document).isSome ↔ v.depth ≤ depth := by
  induction h with
  | null | bool b | string s => intro depth; simp [document, Value.ofDocument, Value.depth]
  | number h => intro depth; simp [document, Value.ofDocument, Value.depth, h.readable.2]
  | @array vs h ih =>
      intro depth
      rw [document, Value.depth]
      cases depth with
      | zero => simp [Value.ofDocument]
      | succ depth =>
          have hitems : (ofItems depth (documents vs)).isSome ↔ itemDepth vs ≤ depth := by
            rw [ofItems_isSome, documents_eq_map, List.forall_mem_map, itemDepth_le_iff]
            exact forall₂_congr fun v hv => ih v hv depth
          rw [Value.ofDocument, Option.isSome_map, hitems, Nat.succ_le_succ_iff]
  | @object fs h ih =>
      intro depth
      rw [document, Value.depth]
      cases depth with
      | zero => simp [Value.ofDocument]
      | succ depth =>
          have hfields : (ofDocumentFields depth (documentFields fs)).isSome ↔
              fieldDepth fs ≤ depth := by
            rw [ofDocumentFields_isSome, fieldDepth_le_iff]
            exact forall₂_congr fun f hf => ih f hf depth
          rw [Value.ofDocument, Option.isSome_map, hfields, Nat.succ_le_succ_iff]

end Json.Value

end FeedPoller
