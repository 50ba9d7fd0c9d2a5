/-
Data that is printed and read again.

Printing gives data the structure of a document, and reading a document gives it a meaning.  Of
data itself two things are asked for this to come back to where it began: every number is the
value of what is printed for it, and objects have their names sorted, each once, which
is how they are kept.  Records write their fields in an order of their own, so a record is
not read back as data; its document is all that its reader needs, and for that it is enough that
numbers are printed as numbers.

Whether data may be read back at all is a question of how deeply it is nested, and of nothing else.
-/
import FeedPoller.Json.Reader
import FeedPoller.Proofs.Fields
import FeedPoller.Proofs.Json.Grammar

namespace FeedPoller.Json.Value

/-! ### The document of a value -/

mutual

/-- The structure of what is printed for a value. -/
def document : Value → Document
  | .null => .null
  | .bool b => .bool b
  | .number n => .number n.literal
  | .string s => .string (some s)
  | .array vs => .array (documents vs)
  | .object fs => .object (documentFields fs)

def documents : List Value → List Document
  | [] => []
  | v :: vs => v.document :: documents vs

def documentFields : List (String × Value) → List (Option String × Document)
  | [] => []
  | (name, v) :: fs => (some name, v.document) :: documentFields fs

end

theorem documents_eq_map (vs : List Value) : documents vs = vs.map document := by
  induction vs with
  | nil => rfl
  | cons v vs ih => rw [documents, ih, List.map_cons]

theorem documentFields_eq_map (fs : List (String × Value)) :
    documentFields fs = fs.map fun f => (some f.1, f.2.document) := by
  induction fs with
  | nil => rfl
  | cons f fs ih => rw [documentFields, ih, List.map_cons]

/-- A value all of whose numbers are printed as numbers. -/
inductive Spelled : Value → Prop where
  | null : Spelled .null
  | bool (b : Bool) : Spelled (.bool b)
  | number {n : Number} (h : n.Spelled) : Spelled (.number n)
  | string (s : String) : Spelled (.string s)
  | array {vs : List Value} (h : ∀ v ∈ vs, Spelled v) : Spelled (.array vs)
  | object {fs : List (String × Value)} (h : ∀ f ∈ fs, Spelled f.2) : Spelled (.object fs)

/-! ### Printing -/

section Printing

open Grammar (Spells Part)

theorem space_nil : Grammar.Space [] := by
  intro c hc
  exact absurd hc (by simp)

theorem spells_items {vs : List Value} (h : ∀ v ∈ vs, Spells (.value v.document) v.chars) :
    Spells (.items (documents vs)) (itemChars vs) := by
  induction vs with
  | nil => exact .noItems space_nil
  | cons v vs ih =>
      exact .items space_nil space_nil (h v (by simp)) (ih fun u hu => h u (by simp [hu]))

theorem spells_fields {fs : List (String × Value)}
    (h : ∀ f ∈ fs, Spells (.value f.2.document) f.2.chars) :
    Spells (.fields (documentFields fs)) (fieldChars fs) := by
  induction fs with
  | nil => exact .noFields space_nil
  | cons f fs ih =>
      have hfield :
          Spells (.field (some f.1, f.2.document)) (stringChars f.1 ++ ':' :: f.2.chars) :=
        .field space_nil space_nil (h f (by simp))
      have hmore := ih fun g hg => h g (by simp [hg])
      have hspells := Spells.fields space_nil space_nil hfield hmore
      rw [List.nil_append, List.nil_append, List.append_assoc, List.cons_append] at hspells
      exact hspells

/-- What is printed for a value spells its document. -/
theorem Spelled.spells {v : Value} (h : v.Spelled) : Spells (.value v.document) v.chars := by
  induction h with
  | null => exact .null
  | bool b =>
      cases b with
      | true => exact .true
      | false => exact .false
  | number h => exact .number h
  | string s => exact .string s
  | @array vs h ih =>
      cases vs with
      | nil => exact .emptyArray space_nil
      | cons v vs =>
          exact .array space_nil (ih v (by simp)) (spells_items fun u hu => ih u (by simp [hu]))
  | @object fs h ih =>
      cases fs with
      | nil => exact .emptyObject space_nil
      | cons f fs =>
          have hfield : Spells (.field (some f.1, f.2.document))
              (stringChars f.1 ++ ':' :: f.2.chars) := .field space_nil space_nil (ih f (by simp))
          have hmore : Spells (.fields (documentFields fs)) (fieldChars fs) :=
            spells_fields fun g hg => ih g (by simp [hg])
          have hspells := Spells.object space_nil hfield hmore
          rw [List.nil_append, List.append_assoc, List.cons_append] at hspells
          exact hspells

/-- What is printed for a value is read as its document. -/
theorem Spelled.ofText_compact {v : Value} (h : v.Spelled) :
    Document.ofText v.compact = some v.document := by
  unfold Document.ofText compact
  rw [String.toList_ofList]
  exact Document.ofChars_of_spells h.spells

theorem space_newLine (depth : Nat) : Grammar.Space (newLine depth) := by
  intro c hc
  rcases List.mem_cons.mp hc with rfl | hc
  · decide
  · rw [List.eq_of_mem_replicate hc]
    decide

theorem spells_indentedItems {depth : Nat} {vs : List Value}
    (h : ∀ v ∈ vs, Spells (.value v.document) (v.indented (depth + 1))) :
    Spells (.items (documents vs)) (indentedItems depth vs) := by
  induction vs with
  | nil => exact .noItems (space_newLine depth)
  | cons v vs ih =>
      exact .items space_nil (space_newLine (depth + 1)) (h v (by simp))
        (ih fun u hu => h u (by simp [hu]))

/-- There is one space behind the colon of an indented field. -/
theorem spells_indentedField (name : String) {d : Document} {cs : List Char}
    (h : Spells (.value d) cs) :
    Spells (.field (some name, d)) (stringChars name ++ ':' :: ' ' :: cs) := by
  have hwide : Grammar.Space [' '] := by simp [Grammar.Space, Grammar.isSpace]
  exact .field space_nil hwide h

theorem spells_indentedFields {depth : Nat} {fs : List (String × Value)}
    (h : ∀ f ∈ fs, Spells (.value f.2.document) (f.2.indented (depth + 1))) :
    Spells (.fields (documentFields fs)) (indentedFields depth fs) := by
  induction fs with
  | nil => exact .noFields (space_newLine depth)
  | cons f fs ih =>
      have hspells := Spells.fields space_nil (space_newLine (depth + 1))
        (spells_indentedField f.1 (h f (by simp))) (ih fun g hg => h g (by simp [hg]))
      rw [List.nil_append, List.append_assoc, List.cons_append, List.cons_append] at hspells
      exact hspells

/-- What is printed for a value line by line spells its document, however deep it stands. -/
theorem Spelled.spells_indented {v : Value} (h : v.Spelled) :
    ∀ depth, Spells (.value v.document) (v.indented depth) := by
  induction h with
  | null => exact fun _ => .null
  | bool b =>
      cases b with
      | true => exact fun _ => .true
      | false => exact fun _ => .false
  | number h => exact fun _ => .number h
  | string s => exact fun _ => .string s
  | @array vs h ih =>
      intro depth
      cases vs with
      | nil => exact .emptyArray space_nil
      | cons v vs =>
          exact .array (space_newLine (depth + 1)) (ih v (by simp) (depth + 1))
            (spells_indentedItems fun u hu => ih u (by simp [hu]) (depth + 1))
  | @object fs h ih =>
      intro depth
      cases fs with
      | nil => exact .emptyObject space_nil
      | cons f fs =>
          have hmore : Spells (.fields (documentFields fs)) (indentedFields depth fs) :=
            spells_indentedFields fun g hg => ih g (by simp [hg]) (depth + 1)
          have hspells := Spells.object (space_newLine (depth + 1))
            (spells_indentedField f.1 (ih f (by simp) (depth + 1))) hmore
          rw [List.append_assoc, List.cons_append, List.cons_append] at hspells
          exact hspells

/-- What is printed for a value line by line is read as its document. -/
theorem Spelled.ofText_pretty {v : Value} (h : v.Spelled) :
    Document.ofText v.pretty = some v.document := by
  unfold Document.ofText pretty
  rw [String.toList_ofList]
  exact Document.ofChars_of_spells (h.spells_indented 0)

end Printing

/-! ### Reading -/

/-- Data as it is kept: no number loses anything, and names are sorted, each once. -/
inductive Lawful : Value → Prop where
  | null : Lawful .null
  | bool (b : Bool) : Lawful (.bool b)
  | number {n : Number} (h : n.Lossless) : Lawful (.number n)
  | string (s : String) : Lawful (.string s)
  | array {vs : List Value} (h : ∀ v ∈ vs, Lawful v) : Lawful (.array vs)
  | object {fs : List (String × Value)} (hs : Fields.Sorted fs) (h : ∀ f ∈ fs, Lawful f.2) :
      Lawful (.object fs)

theorem Lawful.spelled {v : Value} (h : v.Lawful) : v.Spelled := by
  induction h with
  | null => exact .null
  | bool b => exact .bool b
  | number h => exact .number h.1
  | string s => exact .string s
  | array _ ih => exact .array ih
  | object _ _ ih => exact .object ih

mutual

/-- How deep arrays and objects are nested in a value. -/
def depth : Value → Nat
  | .array vs => itemDepth vs + 1
  | .object fs => fieldDepth fs + 1
  | _ => 0

def itemDepth : List Value → Nat
  | [] => 0
  | v :: vs => max v.depth (itemDepth vs)

def fieldDepth : List (String × Value) → Nat
  | [] => 0
  | (_, v) :: fs => max v.depth (fieldDepth fs)

end

theorem ofItems_documents {depth : Nat} {vs : List Value}
    (h : ∀ v ∈ vs, ofDocument depth v.document = if v.depth ≤ depth then some v else none) :
    ofItems depth (documents vs) = if itemDepth vs ≤ depth then some vs else none := by
  induction vs with
  | nil => simp [documents, ofItems, itemDepth]
  | cons v vs ih =>
      rw [documents, ofItems, h v (by simp), ih fun u hu => h u (by simp [hu]), itemDepth]
      by_cases hv : v.depth ≤ depth
      · by_cases hvs : itemDepth vs ≤ depth
        · rw [if_pos hv, if_pos hvs, if_pos (Nat.max_le.mpr ⟨hv, hvs⟩)]
          rfl
        · rw [if_pos hv, if_neg hvs, if_neg fun hmax => hvs (Nat.max_le.mp hmax).2]
          rfl
      · rw [if_neg hv, if_neg fun hmax => hv (Nat.max_le.mp hmax).1]
        rfl

theorem ofDocumentFields_documentFields {depth : Nat} {fs : List (String × Value)}
    (h : ∀ f ∈ fs, ofDocument depth f.2.document = if f.2.depth ≤ depth then some f.2 else none) :
    ofDocumentFields depth (documentFields fs)
      = if fieldDepth fs ≤ depth then some fs else none := by
  induction fs with
  | nil => simp [documentFields, ofDocumentFields, fieldDepth]
  | cons f fs ih =>
      rw [documentFields, ofDocumentFields, h f (by simp), ih fun g hg => h g (by simp [hg]),
        fieldDepth]
      by_cases hf : f.2.depth ≤ depth
      · by_cases hfs : fieldDepth fs ≤ depth
        · rw [if_pos hf, if_pos hfs, if_pos (Nat.max_le.mpr ⟨hf, hfs⟩)]
          rfl
        · rw [if_pos hf, if_neg hfs, if_neg fun hmax => hfs (Nat.max_le.mp hmax).2]
          rfl
      · rw [if_neg hf, if_neg fun hmax => hf (Nat.max_le.mp hmax).1]
        rfl

/-- Data is read back from its document as it was, unless it is nested too deeply. -/
theorem Lawful.ofDocument {v : Value} (h : v.Lawful) :
    ∀ depth, ofDocument depth v.document = if v.depth ≤ depth then some v else none := by
  induction h with
  | null | bool b | string s => intro depth; simp [document, Value.ofDocument, Value.depth]
  | number h => intro depth; simp [document, Value.ofDocument, Value.depth, h.2]
  | @array vs h ih =>
      intro depth
      rw [document, Value.depth]
      cases depth with
      | zero => simp [Value.ofDocument]
      | succ depth =>
          rw [Value.ofDocument, ofItems_documents fun v hv => ih v hv depth]
          by_cases hle : itemDepth vs ≤ depth
          · rw [if_pos hle, if_pos (Nat.succ_le_succ hle)]
            rfl
          · rw [if_neg hle, if_neg fun hmax => hle (Nat.le_of_succ_le_succ hmax)]
            rfl
  | @object fs hs h ih =>
      intro depth
      rw [document, Value.depth]
      cases depth with
      | zero => simp [Value.ofDocument]
      | succ depth =>
          rw [Value.ofDocument, ofDocumentFields_documentFields fun f hf => ih f hf depth]
          by_cases hle : fieldDepth fs ≤ depth
          · rw [if_pos hle, if_pos (Nat.succ_le_succ hle), Option.map_some,
              Fields.ofList_of_sorted hs]
          · rw [if_neg hle, if_neg fun hmax => hle (Nat.le_of_succ_le_succ hmax)]
            rfl

end FeedPoller.Json.Value
