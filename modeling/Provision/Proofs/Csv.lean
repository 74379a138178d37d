import Provision.Csv
import Provision.Proofs.Text.Pieces
import Provision.Proofs.Text.Whole

namespace Provision.Csv

open Provision.Text

/-! ### The grammar -/

def isBare (c : Char) : Bool :=
  c ≠ ',' ∧ c ≠ '"' ∧ c ≠ '\r' ∧ c ≠ '\n'

/-- What stands between quotes, and the characters it spells. -/
inductive Doubles : List Char → List Char → Prop
  | nil : Doubles [] []
  | quote {text cs} (h : Doubles text cs) : Doubles ('"' :: '"' :: text) ('"' :: cs)
  | char {c text cs} (hc : c ≠ '"') (h : Doubles text cs) : Doubles (c :: text) (c :: cs)

inductive IsField : List Char → List Char → Prop
  | bare {cs} (h : ∀ c ∈ cs, isBare c) : IsField cs cs
  | quoted {text cs} (h : Doubles text cs) : IsField ('"' :: (text ++ ['"'])) cs

inductive IsRow : List Char → List (List Char) → Prop
  | last {text field} (h : IsField text field) : IsRow (text ++ ['\r', '\n']) [field]
  | cons {text field rest row} (h : IsField text field) (hs : IsRow rest row) :
      IsRow (text ++ ',' :: rest) (field :: row)

inductive IsTable : List Char → List (List (List Char)) → Prop
  | nil : IsTable [] []
  | cons {text row rest table} (h : IsRow text row) (hs : IsTable rest table) :
      IsTable (text ++ rest) (row :: table)

variable {c d : Char} {cs ds rest rest' text text' field field' : List Char}
  {row row' : List (List Char)} {table table' : List (List (List Char))}

/-! ### One reading -/

/-- What is quoted ends at the first quote without another one behind it. -/
theorem Doubles.unique (h : Doubles text cs) (h' : Doubles text' ds) (hc : c ≠ '"') (hd : d ≠ '"')
    (heq : text ++ '"' :: c :: rest = text' ++ '"' :: d :: rest') :
    cs = ds ∧ c :: rest = d :: rest' := by
  induction h generalizing text' ds with
  | nil =>
    cases h' with
    | nil => exact ⟨rfl, (List.cons.inj heq).2⟩
    | quote => exact absurd (List.cons.inj (List.cons.inj heq).2).1 hc
    | char hne => exact absurd (List.cons.inj heq).1.symm hne
  | quote _ ih =>
    cases h' with
    | nil => exact absurd (List.cons.inj (List.cons.inj heq).2).1.symm hd
    | quote h' =>
      obtain ⟨rfl, hrest⟩ := ih h' (List.cons.inj (List.cons.inj heq).2).2
      exact ⟨rfl, hrest⟩
    | char hne => exact absurd (List.cons.inj heq).1.symm hne
  | char hne _ ih =>
    cases h' with
    | nil => exact absurd (List.cons.inj heq).1 hne
    | quote => exact absurd (List.cons.inj heq).1 hne
    | char _ h' =>
      obtain ⟨rfl, htail⟩ := List.cons.inj heq
      obtain ⟨rfl, hrest⟩ := ih h' htail
      exact ⟨rfl, hrest⟩

def IsEnd (c : Char) : Prop :=
  c = ',' ∨ c = '\r'

theorem IsEnd.ne_quote (h : IsEnd c) : c ≠ '"' := by
  obtain rfl | rfl := h <;> decide

theorem IsEnd.not_isBare (h : IsEnd c) : ¬isBare c := by
  obtain rfl | rfl := h <;> decide

theorem ne_quote_append (h : ∀ c ∈ cs, isBare c) (hend : IsEnd c) (ds : List Char) :
    cs ++ c :: rest ≠ '"' :: ds := by
  intro heq
  cases cs with
  | nil => exact hend.ne_quote (List.cons.inj heq).1
  | cons b cs =>
    obtain rfl := (List.cons.inj heq).1
    exact absurd (h '"' List.mem_cons_self) (by decide)

theorem IsField.unique (h : IsField text field) (h' : IsField text' field') (hc : IsEnd c)
    (hd : IsEnd d) (heq : text ++ c :: rest = text' ++ d :: rest') :
    field = field' ∧ c :: rest = d :: rest' := by
  cases h with
  | bare h =>
    cases h' with
    | bare h' =>
      have hhead {c : Char} {rest : List Char} (hc : IsEnd c) : ∀ x ∈ (c :: rest).head?, ¬isBare x := by
        rintro x ⟨⟩
        exact hc.not_isBare
      exact run_append_inj h h' (hhead hc) (hhead hd) heq
    | quoted => exact absurd heq (ne_quote_append h hc _)
  | quoted h =>
    cases h' with
    | bare h' => exact absurd heq.symm (ne_quote_append h' hd _)
    | quoted h' =>
      simp only [List.cons_append, List.append_assoc, List.nil_append] at heq
      exact h.unique h' hc.ne_quote hd.ne_quote (List.cons.inj heq).2

theorem IsRow.unique (h : IsRow text row) (h' : IsRow text' row')
    (heq : text ++ rest = text' ++ rest') : row = row' ∧ rest = rest' := by
  induction h generalizing text' row' with
  | last h =>
    rw [List.append_assoc] at heq
    cases h' with
    | last h' =>
      rw [List.append_assoc] at heq
      obtain ⟨rfl, htail⟩ := h.unique h' (Or.inr rfl) (Or.inr rfl) heq
      exact ⟨rfl, (List.cons.inj (List.cons.inj htail).2).2⟩
    | cons h' =>
      rw [List.append_assoc] at heq
      obtain ⟨-, htail⟩ := h.unique h' (Or.inr rfl) (Or.inl rfl) heq
      cases htail
  | cons h _ ih =>
    rw [List.append_assoc] at heq
    cases h' with
    | last h' =>
      rw [List.append_assoc] at heq
      obtain ⟨-, htail⟩ := h.unique h' (Or.inl rfl) (Or.inr rfl) heq
      cases htail
    | cons h' hs' =>
      rw [List.append_assoc] at heq
      obtain ⟨rfl, htail⟩ := h.unique h' (Or.inl rfl) (Or.inl rfl) heq
      obtain ⟨rfl, hrest⟩ := ih hs' (List.cons.inj htail).2
      exact ⟨rfl, hrest⟩

theorem IsRow.ne_nil (h : IsRow text row) : text ≠ [] := by
  cases h <;> simp

theorem IsTable.unique (h : IsTable text table) (h' : IsTable text table') : table = table' := by
  induction h generalizing table' with
  | nil =>
    generalize hnil : ([] : List Char) = empty at h'
    cases h' with
    | nil => rfl
    | cons h' => exact absurd (List.append_eq_nil_iff.mp hnil.symm).1 h'.ne_nil
  | @cons text row rest table h hs ih =>
    generalize hwritten : text ++ rest = written at h'
    cases h' with
    | nil => exact absurd (List.append_eq_nil_iff.mp hwritten).1 h.ne_nil
    | cons h' hs' =>
      obtain ⟨rfl, rfl⟩ := h.unique h' hwritten
      exact congrArg _ (ih hs')

/-! ### What is written -/

theorem doubles_quote (cs : List Char) : Doubles (quote cs) cs := by
  induction cs with
  | nil => exact .nil
  | cons c cs ih =>
    by_cases hc : c = '"'
    · subst hc
      exact .quote ih
    · rw [quote, if_neg hc]
      exact .char hc ih

theorem isField_field (s : String) : IsField (Csv.field s) s.toList := by
  unfold Csv.field
  split
  case isTrue => exact .quoted (doubles_quote _)
  case isFalse h =>
    refine .bare fun c hc => ?_
    have hplain := List.any_eq_false.mp (eq_false_of_ne_true h) c hc
    simpa [isBare, not_or, and_assoc] using hplain

theorem fields_cons (s t : String) (cells : List String) :
    fields (s :: t :: cells) = Csv.field s ++ ',' :: fields (t :: cells) :=
  rfl

theorem isRow_row {cells : List String} (h : cells ≠ []) :
    IsRow (Csv.row cells) (cells.map String.toList) := by
  unfold Csv.row
  induction cells with
  | nil => exact absurd rfl h
  | cons s cells ih =>
    cases cells with
    | nil => exact .last (isField_field s)
    | cons t cells =>
      have hrest := ih (List.cons_ne_nil t cells)
      rw [fields_cons, List.append_assoc]
      exact .cons (isField_field s) hrest

theorem isTable_rows {rows : List (List String)} (h : ∀ cells ∈ rows, cells ≠ []) :
    IsTable (rows.flatMap Csv.row) (rows.map fun cells => cells.map String.toList) := by
  induction rows with
  | nil => exact .nil
  | cons cells rows ih =>
    obtain ⟨hcells, hrows⟩ := List.forall_mem_cons.mp h
    exact .cons (isRow_row hcells) (ih hrows)

theorem isTable_rows_iff {rows : List (List String)} (h : ∀ cells ∈ rows, cells ≠ []) :
    IsTable (rows.flatMap Csv.row) table ↔ table = rows.map fun cells => cells.map String.toList :=
  ⟨fun htable => htable.unique (isTable_rows h), fun heq => heq ▸ isTable_rows h⟩

/-! ### Texts held -/

theorem quote_eq_flatMap (cs : List Char) :
    quote cs = cs.flatMap fun c => if c = '"' then ['"', '"'] else [c] := by
  induction cs with
  | nil => rfl
  | cons c cs ih =>
    rw [quote, List.flatMap_cons, ih]
    split <;> rfl

theorem quote_ofCharacters (cs : List Char) : quote (ofCharacters cs) = ofCharacters (quote cs) := by
  rw [quote_eq_flatMap, quote_eq_flatMap]
  refine flatMap_ofCharacters (if_neg (by decide)) (fun c hc => ?_) cs
  split
  · decide
  · exact fun hmem => hc (List.mem_singleton.mp hmem).symm

theorem needsQuotes_ofCharacters (cs : List Char) :
    needsQuotes (ofCharacters cs) = needsQuotes cs := by
  have hkept {c : Char} (hc : c ≠ mark) : c ∈ ofCharacters cs ↔ c ∈ cs := mem_ofCharacters_iff hc
  rw [Bool.eq_iff_iff, needsQuotes, needsQuotes, List.any_eq_true, List.any_eq_true]
  refine exists_congr fun c => ?_
  by_cases hc : c = mark
  · subst hc
    exact iff_of_false (fun h => absurd h.2 (by decide)) fun h => absurd h.2 (by decide)
  · rw [hkept hc]

theorem field_held (s : String) : Csv.field (held s) = ofCharacters (Csv.field s) := by
  unfold Csv.field
  rw [toList_held, needsQuotes_ofCharacters, quote_ofCharacters]
  have hquote : ofCharacters ['"'] = ['"'] := rfl
  split
  · rw [ofCharacters_append, ofCharacters_cons, hquote]
    rfl
  · rfl

theorem fields_held (cells : List String) : fields (cells.map held) = ofCharacters (fields cells) := by
  induction cells with
  | nil => rfl
  | cons s cells ih =>
    cases cells with
    | nil => exact field_held s
    | cons t cells =>
      rw [List.map_cons, List.map_cons, fields_cons, fields_cons, field_held, ofCharacters_append,
        ofCharacters_cons, ← ih]
      rfl

theorem row_held (cells : List String) : Csv.row (cells.map held) = ofCharacters (Csv.row cells) := by
  rw [Csv.row, Csv.row, fields_held, ofCharacters_append]
  rfl

theorem lines_held (rows : List (List String)) :
    lines (rows.map (List.map held)) = (lines rows).map held := by
  rw [lines, lines, List.map_map, List.map_map]
  refine List.map_congr_left fun cells _ => ?_
  rw [Function.comp_apply, Function.comp_apply, row_held, held, String.toList_ofList]

theorem toList_join_lines (rows : List (List String)) :
    (String.join (lines rows)).toList = rows.flatMap Csv.row := by
  simp [lines, String.toList_join, List.flatMap_map]

end Provision.Csv
