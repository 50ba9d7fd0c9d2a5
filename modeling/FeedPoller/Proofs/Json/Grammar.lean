/-
What spells a document.

The reader is a function with fuel; what it should read is said here by rules, one for each
way of writing a value, with white space wherever JSON has room for it.  A text that spells a
document by these rules is read as that document, and the reader stops right behind it.

The proof is one induction over the rules.  The fuel is no concern in it, because every call
of the reader goes on with a shorter part of the text.  What it needs to know beyond the parts
themselves is how each begins: a value begins with no white space and no closing
bracket, so the reader does not miss it, and what goes on behind a value
begins with something that ends it.
-/
import FeedPoller.Proofs.Json.Number
import FeedPoller.Proofs.Json.Quoted

namespace FeedPoller.Json

namespace Grammar

/-- A row of white space. -/
def Space (cs : List Char) : Prop := ∀ c ∈ cs, isSpace c = true

theorem skipSpace_append {space : List Char} (h : Space space) (cs : List Char) :
    skipSpace (space ++ cs) = skipSpace cs := List.dropWhile_append_of_pos h

/-- White space ends where something else begins. -/
theorem skipSpace_of_head {c : Char} {cs : List Char} (h : isSpace c = false) :
    skipSpace (c :: cs) = c :: cs := List.dropWhile_cons_of_neg (by simp [h])

theorem skipSpace_space {space : List Char} (hspace : Space space) {c : Char} (cs : List Char)
    (h : isSpace c = false) : skipSpace (space ++ c :: cs) = c :: cs := by
  rw [skipSpace_append hspace, skipSpace_of_head h]

/-! ### The rules -/

/-- What one call of the reader reads. -/
inductive Part where
  | value (d : Document)
  /-- The items of an array behind one of them, up to its end. -/
  | items (ds : List Document)
  | field (f : Option String × Document)
  /-- The fields of an object behind one of them, up to its end. -/
  | fields (fs : List (Option String × Document))

/-- A text that spells a part of a document. -/
inductive Spells : Part → List Char → Prop where
  | null : Spells (.value .null) ['n', 'u', 'l', 'l']
  | true : Spells (.value (.bool true)) ['t', 'r', 'u', 'e']
  | false : Spells (.value (.bool false)) ['f', 'a', 'l', 's', 'e']
  | number {l : Literal} {cs : List Char} (h : Grammar.number cs = some (l, [])) :
      Spells (.value (.number l)) cs
  | string (s : String) : Spells (.value (.string s)) (stringChars s)
  | emptyArray {space : List Char} (hs : Space space) :
      Spells (.value (.array [])) ('[' :: (space ++ [']']))
  | array {d : Document} {ds : List Document} {space cs more : List Char} (hs : Space space)
      (hd : Spells (.value d) cs) (hds : Spells (.items ds) more) :
      Spells (.value (.array (d :: ds))) ('[' :: (space ++ (cs ++ more)))
  | emptyObject {space : List Char} (hs : Space space) :
      Spells (.value (.object [])) ('\x7b' :: (space ++ ['\x7d']))
  | object {f : Option String × Document} {fs : List (Option String × Document)}
      {space cs more : List Char} (hs : Space space) (hf : Spells (.field f) cs)
      (hfs : Spells (.fields fs) more) :
      Spells (.value (.object (f :: fs))) ('\x7b' :: (space ++ (cs ++ more)))
  | noItems {space : List Char} (hs : Space space) : Spells (.items []) (space ++ [']'])
  | items {d : Document} {ds : List Document} {space wide cs more : List Char} (hs : Space space)
      (hw : Space wide) (hd : Spells (.value d) cs) (hds : Spells (.items ds) more) :
      Spells (.items (d :: ds)) (space ++ ',' :: (wide ++ (cs ++ more)))
  | field {name : String} {d : Document} {space wide cs : List Char} (hs : Space space)
      (hw : Space wide) (hd : Spells (.value d) cs) :
      Spells (.field (some name, d)) (stringChars name ++ (space ++ ':' :: (wide ++ cs)))
  | noFields {space : List Char} (hs : Space space) : Spells (.fields []) (space ++ ['\x7d'])
  | fields {f : Option String × Document} {fs : List (Option String × Document)}
      {space wide cs more : List Char} (hs : Space space) (hw : Space wide)
      (hf : Spells (.field f) cs) (hfs : Spells (.fields fs) more) :
      Spells (.fields (f :: fs)) (space ++ ',' :: (wide ++ (cs ++ more)))

/-- The reader reads a part at the front of a text and leaves the rest. -/
def Part.Read (fuel : Nat) (cs rest : List Char) : Part → Prop
  | .value d => Grammar.value fuel cs = some (d, rest)
  | .items ds => Grammar.items fuel cs = some (ds, rest)
  | .field f => Grammar.field fuel cs = some (f, rest)
  | .fields fs => Grammar.fields fuel cs = some (fs, rest)

/-! ### How parts begin -/

/-- A character that begins a value. -/
def Begins (c : Char) : Prop := isSpace c = false ∧ c ≠ ']' ∧ c ≠ '\x7d'

theorem number_nil : number [] = none := by decide

theorem begins_of_number {c : Char} (h : c = '-' ∨ c.isDigit = true) : Begins c := by
  rcases h with rfl | h
  · exact ⟨by decide, by decide, by decide⟩
  · have hno : ∀ d : Char, d.isDigit = false → c ≠ d := by
      rintro d hd rfl
      rw [h] at hd
      exact absurd hd (by decide)
    refine ⟨?_, hno _ (by decide), hno _ (by decide)⟩
    simp [isSpace, hno ' ' (by decide), hno '\n' (by decide), hno '\t' (by decide),
      hno '\r' (by decide)]

theorem Spells.value_head {d : Document} {cs : List Char} (h : Spells (.value d) cs) :
    ∃ c tail, cs = c :: tail ∧ Begins c := by
  cases h with
  | null => exact ⟨_, _, rfl, by decide, by decide, by decide⟩
  | true => exact ⟨_, _, rfl, by decide, by decide, by decide⟩
  | false => exact ⟨_, _, rfl, by decide, by decide, by decide⟩
  | @number l cs h =>
      cases cs with
      | nil => exact absurd (number_nil.symm.trans h) (by simp)
      | cons c cs => exact ⟨c, cs, rfl, begins_of_number (head_of_number h)⟩
  | string s => exact ⟨_, _, rfl, by decide, by decide, by decide⟩
  | emptyArray | array => exact ⟨_, _, rfl, by decide, by decide, by decide⟩
  | emptyObject | object => exact ⟨_, _, rfl, by decide, by decide, by decide⟩

theorem Spells.field_head {f : Option String × Document} {cs : List Char}
    (h : Spells (.field f) cs) : ∃ tail, cs = '"' :: tail := by
  cases h
  exact ⟨_, rfl⟩

/-- Behind white space or at once, something ends a value. -/
theorem apart_space {space : List Char} (hs : Space space) {c : Char} (cs : List Char)
    (h : endsValue c = true) : Apart (space ++ c :: cs) := by
  cases space with
  | nil => exact apart_cons h
  | cons d space => exact apart_cons (by simp [endsValue, hs d (by simp)])

theorem Spells.items_apart {ds : List Document} {cs : List Char} (h : Spells (.items ds) cs)
    (rest : List Char) : Apart (cs ++ rest) := by
  cases h with
  | noItems hs => rw [List.append_assoc]; exact apart_space hs _ (by decide)
  | items hs => rw [List.append_assoc]; exact apart_space hs _ (by decide)

theorem Spells.fields_apart {fs : List (Option String × Document)} {cs : List Char}
    (h : Spells (.fields fs) cs) (rest : List Char) : Apart (cs ++ rest) := by
  cases h with
  | noFields hs => rw [List.append_assoc]; exact apart_space hs _ (by decide)
  | fields hs => rw [List.append_assoc]; exact apart_space hs _ (by decide)

/-! ### The calls of the reader -/

variable {fuel : Nat}

/-- What begins like a number is read as one. -/
theorem value_number {c : Char} {cs : List Char} (h : c = '-' ∨ c.isDigit = true) :
    value (fuel + 1) (c :: cs) = (number (c :: cs)).map fun (l, rest) => (.number l, rest) := by
  have hno : ∀ d : Char, d ≠ '-' → d.isDigit = false → ∀ tail, c :: cs = d :: tail → False := by
    rintro d hminus hdigit tail heq
    obtain ⟨rfl, -⟩ := List.cons.inj heq
    rcases h with h | h
    · exact hminus h
    · rw [h] at hdigit
      exact absurd hdigit (by decide)
  rw [value.eq_8]
  · exact fun _ => hno 'n' (by decide) (by decide) _
  · exact fun _ => hno 't' (by decide) (by decide) _
  · exact fun _ => hno 'f' (by decide) (by decide) _
  · exact fun _ => hno '"' (by decide) (by decide) _
  · exact fun _ => hno '[' (by decide) (by decide) _
  · exact fun _ => hno '\x7b' (by decide) (by decide) _

/-- An array that does not end at once is read item by item. -/
theorem value_array {space cs : List Char} (hs : Space space) {c : Char} (hc : Begins c) :
    value (fuel + 1) ('[' :: (space ++ c :: cs)) = (value fuel (c :: cs)).bind fun (d, rest) =>
      (items fuel rest).map fun (ds, rest) => (.array (d :: ds), rest) := by
  rw [value.eq_6, skipSpace_space hs _ hc.1]
  split
  · next heq => exact absurd (List.cons.inj heq).1 hc.2.1
  · cases value fuel (c :: cs) with
    | none => rfl
    | some p => cases hmore : items fuel p.2 <;> simp [hmore]

/-- An object that does not end at once is read field by field. -/
theorem value_object {space cs : List Char} (hs : Space space) :
    value (fuel + 1) ('\x7b' :: (space ++ '"' :: cs)) = (field fuel ('"' :: cs)).bind
      fun (f, rest) => (fields fuel rest).map fun (fs, rest) => (.object (f :: fs), rest) := by
  rw [value.eq_7, skipSpace_space hs _ (by decide)]
  show ((field fuel ('"' :: cs)).bind fun p => (fields fuel p.2).bind fun q => _) = _
  cases field fuel ('"' :: cs) with
  | none => rfl
  | some p => cases hmore : fields fuel p.2 <;> simp [hmore]

theorem items_cons {space cs : List Char} (hs : Space space) :
    items (fuel + 1) (space ++ ',' :: cs) = (value fuel (skipSpace cs)).bind
      fun (d, rest) => (items fuel rest).map fun (ds, rest) => (d :: ds, rest) := by
  rw [items.eq_2, skipSpace_space hs _ (by decide)]
  show ((value fuel (skipSpace cs)).bind fun p => (items fuel p.2).bind fun q => _) = _
  cases value fuel (skipSpace cs) with
  | none => rfl
  | some p => cases hmore : items fuel p.2 <;> simp [hmore]

theorem fields_cons {space cs : List Char} (hs : Space space) :
    fields (fuel + 1) (space ++ ',' :: cs) = (field fuel (skipSpace cs)).bind
      fun (f, rest) => (fields fuel rest).map fun (fs, rest) => (f :: fs, rest) := by
  rw [fields.eq_2, skipSpace_space hs _ (by decide)]
  show ((field fuel (skipSpace cs)).bind fun p => (fields fuel p.2).bind fun q => _) = _
  cases field fuel (skipSpace cs) with
  | none => rfl
  | some p => cases hmore : fields fuel p.2 <;> simp [hmore]

theorem field_stringChars {name : String} {space cs : List Char} (hs : Space space) :
    field (fuel + 1) (stringChars name ++ (space ++ ':' :: cs)) = (value fuel (skipSpace cs)).map
      fun (d, rest) => ((some name, d), rest) := by
  have hname : stringChars name ++ (space ++ ':' :: cs)
      = '"' :: (name.toList.flatMap escapeChar ++ '"' :: (space ++ ':' :: cs)) := by
    simp [stringChars]
  rw [hname, field.eq_2, quoted_stringChars]
  simp only [Option.bind_eq_bind, Option.bind_some]
  rw [skipSpace_space hs _ (by decide)]
  show ((value fuel (skipSpace cs)).bind fun p => _) = _
  cases value fuel (skipSpace cs) <;> rfl

/-! ### Reading what is spelled -/

/-- A text is read as a part, with fuel for its length and whatever stands apart behind it. -/
def Part.Readable (p : Part) (cs : List Char) : Prop :=
  ∀ (fuel : Nat) (rest : List Char), cs.length < fuel → Apart rest → p.Read fuel (cs ++ rest) rest

section Readable

variable {space wide cs more : List Char} {d : Document} {ds : List Document}
  {f : Option String × Document} {fs : List (Option String × Document)}

/-- One unit of fuel is for the first call. -/
theorem Part.readable_of_call {p : Part}
    (h : ∀ (fuel : Nat) (rest : List Char), cs.length ≤ fuel → Apart rest →
      p.Read (fuel + 1) (cs ++ rest) rest) : p.Readable cs := by
  intro fuel rest hfuel hrest
  obtain ⟨fuel, rfl⟩ := Nat.exists_eq_succ_of_ne_zero (Nat.ne_zero_of_lt hfuel)
  exact h fuel rest (Nat.le_of_lt_succ hfuel) hrest

theorem readable_number {l : Literal} (h : number cs = some (l, [])) :
    (Part.value (.number l)).Readable cs := by
  refine Part.readable_of_call fun fuel rest _ hrest => ?_
  cases cs with
  | nil => exact absurd (number_nil.symm.trans h) (by simp)
  | cons c cs =>
      show value _ _ = _
      rw [List.cons_append, value_number (head_of_number h), ← List.cons_append,
        local_number _ _ hrest, h]
      rfl

theorem readable_string (s : String) : (Part.value (.string s)).Readable (stringChars s) := by
  refine Part.readable_of_call fun fuel rest _ _ => ?_
  have htext : stringChars s ++ rest = '"' :: (s.toList.flatMap escapeChar ++ '"' :: rest) := by
    simp [stringChars]
  show value _ _ = _
  rw [htext, value.eq_5, quoted_stringChars]
  rfl

theorem readable_emptyArray (hs : Space space) :
    (Part.value (.array [])).Readable ('[' :: (space ++ [']'])) := by
  refine Part.readable_of_call fun fuel rest _ _ => ?_
  show value _ _ = _
  rw [List.cons_append, List.append_assoc, List.singleton_append, value.eq_6,
    skipSpace_space hs _ (by decide)]
  rfl

theorem readable_emptyObject (hs : Space space) :
    (Part.value (.object [])).Readable ('\x7b' :: (space ++ ['\x7d'])) := by
  refine Part.readable_of_call fun fuel rest _ _ => ?_
  show value _ _ = _
  rw [List.cons_append, List.append_assoc, List.singleton_append, value.eq_7,
    skipSpace_space hs _ (by decide)]
  rfl

/-- An array is read if its first item is, and what goes on behind that. -/
theorem readable_array (hs : Space space) (hd : Spells (.value d) cs)
    (hds : Spells (.items ds) more)
    (hfirst : (Part.value d).Readable cs) (hmore : (Part.items ds).Readable more) :
    (Part.value (.array (d :: ds))).Readable ('[' :: (space ++ (cs ++ more))) := by
  refine Part.readable_of_call fun fuel rest hfuel hrest => ?_
  simp only [List.length_cons, List.length_append] at hfuel
  obtain ⟨c, tail, rfl, hc⟩ := hd.value_head
  have hvalue := hfirst fuel _ (by omega) (hds.items_apart rest)
  have hitems := hmore fuel _ (by omega) hrest
  show value _ _ = _
  simp only [List.cons_append, List.append_assoc] at hvalue ⊢
  rw [value_array hs hc, hvalue]
  show (items fuel (more ++ rest)).map _ = _
  rw [hitems]
  rfl

/-- An object is read if its first field is, and what goes on behind that. -/
theorem readable_object (hs : Space space) (hf : Spells (.field f) cs)
    (hfs : Spells (.fields fs) more) (hfirst : (Part.field f).Readable cs)
    (hmore : (Part.fields fs).Readable more) :
    (Part.value (.object (f :: fs))).Readable ('\x7b' :: (space ++ (cs ++ more))) := by
  refine Part.readable_of_call fun fuel rest hfuel hrest => ?_
  simp only [List.length_cons, List.length_append] at hfuel
  obtain ⟨tail, rfl⟩ := hf.field_head
  have hfield := hfirst fuel _ (by omega) (hfs.fields_apart rest)
  have hfields := hmore fuel _ (by omega) hrest
  show value _ _ = _
  simp only [List.cons_append, List.append_assoc] at hfield ⊢
  rw [value_object hs, hfield]
  show (fields fuel (more ++ rest)).map _ = _
  rw [hfields]
  rfl

theorem readable_noItems (hs : Space space) : (Part.items []).Readable (space ++ [']']) := by
  refine Part.readable_of_call fun fuel rest _ _ => ?_
  show items _ _ = _
  rw [List.append_assoc, List.singleton_append, items.eq_2, skipSpace_space hs _ (by decide)]
  rfl

theorem readable_noFields (hs : Space space) : (Part.fields []).Readable (space ++ ['\x7d']) := by
  refine Part.readable_of_call fun fuel rest _ _ => ?_
  show fields _ _ = _
  rw [List.append_assoc, List.singleton_append, fields.eq_2, skipSpace_space hs _ (by decide)]
  rfl

theorem readable_items (hs : Space space) (hw : Space wide) (hd : Spells (.value d) cs)
    (hds : Spells (.items ds) more) (hfirst : (Part.value d).Readable cs)
    (hmore : (Part.items ds).Readable more) :
    (Part.items (d :: ds)).Readable (space ++ ',' :: (wide ++ (cs ++ more))) := by
  refine Part.readable_of_call fun fuel rest hfuel hrest => ?_
  simp only [List.length_cons, List.length_append] at hfuel
  obtain ⟨c, tail, rfl, hc⟩ := hd.value_head
  have hvalue := hfirst fuel _ (by omega) (hds.items_apart rest)
  have hitems := hmore fuel _ (by omega) hrest
  show items _ _ = _
  simp only [List.cons_append, List.append_assoc] at hvalue ⊢
  rw [items_cons hs, skipSpace_space hw _ hc.1, hvalue]
  show (items fuel (more ++ rest)).map _ = _
  rw [hitems]
  rfl

theorem readable_fields (hs : Space space) (hw : Space wide) (hf : Spells (.field f) cs)
    (hfs : Spells (.fields fs) more) (hfirst : (Part.field f).Readable cs)
    (hmore : (Part.fields fs).Readable more) :
    (Part.fields (f :: fs)).Readable (space ++ ',' :: (wide ++ (cs ++ more))) := by
  refine Part.readable_of_call fun fuel rest hfuel hrest => ?_
  simp only [List.length_cons, List.length_append] at hfuel
  obtain ⟨tail, rfl⟩ := hf.field_head
  have hfield := hfirst fuel _ (by omega) (hfs.fields_apart rest)
  have hfields := hmore fuel _ (by omega) hrest
  show fields _ _ = _
  simp only [List.cons_append, List.append_assoc] at hfield ⊢
  rw [fields_cons hs, skipSpace_space hw _ (by decide), hfield]
  show (fields fuel (more ++ rest)).map _ = _
  rw [hfields]
  rfl

/-- A field is read if its value is. -/
theorem readable_field {name : String} (hs : Space space) (hw : Space wide)
    (hd : Spells (.value d) cs) (hvalue : (Part.value d).Readable cs) :
    (Part.field (some name, d)).Readable
      (stringChars name ++ (space ++ ':' :: (wide ++ cs))) := by
  refine Part.readable_of_call fun fuel rest hfuel hrest => ?_
  simp only [List.length_cons, List.length_append] at hfuel
  obtain ⟨c, tail, rfl, hc⟩ := hd.value_head
  have hread := hvalue fuel _ (by omega) hrest
  show field _ _ = _
  simp only [List.cons_append, List.append_assoc] at hread ⊢
  rw [field_stringChars hs, skipSpace_space hw _ hc.1, hread]
  rfl

end Readable

/-- What spells a part is read as that part. -/
theorem Spells.read {p : Part} {cs : List Char} (h : Spells p cs) : p.Readable cs := by
  induction h with
  | null | true | false => exact Part.readable_of_call fun _ _ _ _ => rfl
  | number h => exact readable_number h
  | string s => exact readable_string s
  | emptyArray hs => exact readable_emptyArray hs
  | emptyObject hs => exact readable_emptyObject hs
  | array hs hd hds ihd ihds => exact readable_array hs hd hds ihd ihds
  | object hs hf hfs ihf ihfs => exact readable_object hs hf hfs ihf ihfs
  | noItems hs => exact readable_noItems hs
  | noFields hs => exact readable_noFields hs
  | items hs hw hd hds ihd ihds => exact readable_items hs hw hd hds ihd ihds
  | field hs hw hd ihd => exact readable_field hs hw hd ihd
  | fields hs hw hf hfs ihf ihfs => exact readable_fields hs hw hf hfs ihf ihfs

end Grammar

/-- A text that spells a document is that document. -/
theorem Document.ofChars_of_spells {d : Document} {cs : List Char}
    (h : Grammar.Spells (.value d) cs) : Document.ofChars cs = some d := by
  have hread : Grammar.value (2 * cs.length + 2) (cs ++ []) = some (d, []) :=
    h.read _ _ (by omega) Grammar.apart_nil
  obtain ⟨c, tail, rfl, hc⟩ := h.value_head
  rw [List.append_nil] at hread
  unfold Document.ofChars
  rw [Grammar.skipSpace_of_head hc.1, hread]
  rfl

end FeedPoller.Json
