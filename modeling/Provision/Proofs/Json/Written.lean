import Provision.Json.Writer
import Provision.Proofs.Json.Depth
import Provision.Proofs.Text.Quoted
import Provision.Proofs.Text.Whole
import Provision.Proofs.Value.Key

namespace Provision

open Provision.Text

namespace Json

variable {α : Type} {close : Char} {cs first blanks last : List Char} {css : List (List Char)}
  {v : Value} {vs : List Value} {n level : Nat} {l : Layout}

/-! ### Texts -/

theorem codeUnit?_hexDigits {n : Nat} (h : n < 0x20) : ∃ a b c d, hexDigits 4 n = [a, b, c, d] ∧
    codeUnit? a b c d = some n := by
  have hdigits : hexDigits 4 n = ['0', '0', Nat.digitChar (n / 16), Nat.digitChar (n % 16)] := by
    revert n
    decide
  refine ⟨_, _, _, _, hdigits, ?_⟩
  revert n
  decide

theorem leads_escapeChar (c : Char) : Leads none (escapeChar c) none (.char c :: ·) := by
  unfold escapeChar
  split_ifs with hquote hslash hline hreturn htab hback hfeed hcontrol
  · subst hquote
    exact leads_escape rfl
  · subst hslash
    exact leads_escape rfl
  · subst hline
    exact leads_escape rfl
  · subst hreturn
    exact leads_escape rfl
  · subst htab
    exact leads_escape rfl
  · subst hback
    exact leads_escape rfl
  · subst hfeed
    exact leads_escape rfl
  · obtain ⟨a, b, d, e, hdigits, hcode⟩ := codeUnit?_hexDigits hcontrol
    have hfirst : ¬isFirstHalf c.toNat := by simp [isFirstHalf]; omega
    have hsecond : ¬isSecondHalf c.toNat := by simp [isSecondHalf]; omega
    have hleads : Leads none ['\\', 'u', a, b, d, e] none (.char (Char.ofNat c.toNat) :: ·) :=
      leads_code hcode hfirst hsecond
    rw [hdigits]
    rwa [Char.ofNat_toNat] at hleads
  · exact readText_char hquote (not_or.mpr ⟨hcontrol, hslash⟩)

theorem readText_escaped (cs rest : List Char) :
    readText none (cs.flatMap escapeChar ++ '"' :: rest) = .ok (cs.map .char, rest) := by
  induction cs with
  | nil => rfl
  | cons c cs ih =>
    rw [List.flatMap_cons, List.append_assoc, leads_escapeChar c, ih]
    rfl

theorem textLiteral_append (s : String) (rest : List Char) :
    textLiteral s ++ rest = '"' :: (s.toList.flatMap escapeChar ++ '"' :: rest) := by
  simp [textLiteral]

theorem textOf_char (s : String) : textOf (s.toList.map .char) = held s := by
  rw [textOf, held, ofCharacters_eq_flatMap, List.flatMap_map]

theorem mark_not_mem_escapeChar {c : Char} (h : c ≠ mark) : mark ∉ escapeChar c := by
  have hpair {d : Char} (hd : mark ≠ d) : mark ∉ ['\\', d] :=
    List.not_mem_cons_of_ne_of_not_mem (by decide) fun hmem => hd (List.mem_singleton.mp hmem)
  unfold escapeChar
  split_ifs
  -- The seven characters with an escape of their own.
  iterate 7 exact hpair (by decide)
  · intro hmem
    obtain hmem | hmem | hmem : mark = '\\' ∨ mark = 'u' ∨ mark ∈ hexDigits 4 c.toNat := by
      simpa using hmem
    · cases hmem
    · cases hmem
    · exact absurd (isHexDigit_of_mem_hexDigits hmem) (by decide)
  · exact fun hmem => h (List.mem_singleton.mp hmem).symm

theorem textLiteral_held (s : String) : textLiteral (held s) = ofCharacters (textLiteral s) := by
  have hquote : ofCharacters ['"'] = ['"'] := rfl
  rw [textLiteral, textLiteral, toList_held, flatMap_ofCharacters rfl fun _ => mark_not_mem_escapeChar,
    ofCharacters_append, ofCharacters_cons, hquote]
  rfl

/-! ### Spelled values -/

def Opens (close : Char) (cs : List Char) : Prop :=
  ∃ c ds, cs = c :: ds ∧ ¬isSpace c ∧ c ≠ close

theorem Opens.skipSpace_append (h : Opens close cs) (hblanks : ∀ c ∈ blanks, isSpace c) :
    skipSpace (blanks ++ cs) = cs := by
  obtain ⟨c, ds, rfl, hc, -⟩ := h
  rw [Json.skipSpace_append hblanks]
  exact List.dropWhile_cons_of_neg hc

theorem Opens.append (h : Opens close cs) (rest : List Char) : Opens close (cs ++ rest) := by
  obtain ⟨c, ds, rfl, hc⟩ := h
  exact ⟨c, ds ++ rest, rfl, hc⟩

theorem Opens.head?_ne (h : Opens close cs) : cs.head? ≠ some close := by
  obtain ⟨c, ds, rfl, -, hc⟩ := h
  exact fun heq => hc (Option.some.inj heq)

theorem Opens.length_pos (h : Opens close cs) : 0 < cs.length := by
  obtain ⟨c, ds, rfl, -⟩ := h
  exact Nat.zero_lt_succ _

/-- A value is read off the characters, whatever stands behind them, where `n` more levels of brackets
can be opened. -/
structure Spells (n : Nat) (cs : List Char) (v : Value) : Prop where
  opens : Opens ']' cs
  read {fractions : Fractions} {level depth : Nat} (rest : List Char) : level + n ≤ mostLevels →
    cs.length ≤ depth → readValue fractions level depth (cs ++ rest) = .ok (v, rest)

theorem Spells.of_succ (hopens : Opens ']' cs)
    (h : ∀ {fractions : Fractions} {level depth : Nat} (rest : List Char), level + n ≤ mostLevels →
      cs.length ≤ depth + 1 → readValue fractions level (depth + 1) (cs ++ rest) = .ok (v, rest)) :
    Spells n cs v := by
  refine ⟨hopens, fun {fractions level depth} rest hlevel hdepth => ?_⟩
  cases depth with
  | zero => exact absurd hdepth (Nat.not_le.mpr hopens.length_pos)
  | succ depth => exact h rest hlevel hdepth

theorem spells_null (n : Nat) : Spells n "null".toList .null :=
  .of_succ ⟨'n', _, rfl, by decide, by decide⟩ fun _ _ _ => rfl

theorem spells_bool (n : Nat) (b : Bool) :
    Spells n (if b then "true" else "false").toList (.bool b) := by
  cases b with
  | true => exact .of_succ ⟨'t', _, rfl, by decide, by decide⟩ fun _ _ _ => rfl
  | false => exact .of_succ ⟨'f', _, rfl, by decide, by decide⟩ fun _ _ _ => rfl

theorem spells_text (n : Nat) (s : String) : Spells n (textLiteral s) (.text (held s)) := by
  refine .of_succ ⟨'"', _, rfl, by decide, by decide⟩ fun rest _ _ => ?_
  rw [textLiteral_append, readValue_quote, readText_escaped, ← textOf_char]
  rfl

/-! ### Parts of lists and maps -/

/-- A part is read off the characters, and what stands behind them tells how the parts go on. -/
structure SpellsPart (close : Char) (parts : Nat → List Char → Except Fault (List α × List Char))
    (cs : List Char) (a : α) : Prop where
  opens : Opens close cs
  read {depth : Nat} (rest : List Char) : cs.length ≤ depth →
    parts (depth + 1) (cs ++ rest) = behindPart close a (parts depth) (skipSpace rest)

theorem behindPart_close (a : α) (further : List Char → Except Fault (List α × List Char))
    (rest : List Char) : behindPart close a further (close :: rest) = .ok ([a], rest) :=
  if_pos rfl

theorem behindPart_comma (hclose : close ≠ ',') (a : α)
    (further : List Char → Except Fault (List α × List Char)) (cs : List Char) :
    behindPart close a further (',' :: cs) = do
      let (as, rest) ← further (skipSpace cs)
      return (a :: as, rest) := by
  rw [behindPart, if_neg, if_pos]
  · rfl
  · rfl
  · exact fun heq => hclose (Option.some.inj heq).symm

def behindFirst (close : Char) (blanks last : List Char) (css : List (List Char)) : List Char :=
  css.flatMap (fun cs => ',' :: (blanks ++ cs)) ++ (last ++ [close])

theorem behindFirst_cons (css : List (List Char)) : behindFirst close blanks last (cs :: css) =
    ',' :: (blanks ++ (cs ++ behindFirst close blanks last css)) := by
  simp [behindFirst]

theorem skipSpace_behindFirst_nil (hclose : ¬isSpace close) (hlast : ∀ c ∈ last, isSpace c)
    (rest : List Char) :
    skipSpace (behindFirst close blanks last [] ++ rest) = close :: rest := by
  rw [behindFirst, List.flatMap_nil, List.nil_append, List.append_assoc, skipSpace_append hlast]
  exact List.dropWhile_cons_of_neg hclose

/-- Parts are read one after the other, each with a depth less than the one before. -/
theorem read_parts {parts : Nat → List Char → Except Fault (List α × List Char)}
    (hclose : ¬isSpace close ∧ close ≠ ',') (hblanks : ∀ c ∈ blanks, isSpace c)
    (hlast : ∀ c ∈ last, isSpace c) {a : α} {as : List α} (hfirst : SpellsPart close parts first a)
    (h : List.Forall₂ (SpellsPart close parts) css as) {depth : Nat} (rest : List Char)
    (hdepth : (first ++ behindFirst close blanks last css).length ≤ depth) :
    parts depth (first ++ behindFirst close blanks last css ++ rest) = .ok (a :: as, rest) := by
  rw [List.append_assoc]
  rw [List.length_append] at hdepth
  have hpos := hfirst.opens.length_pos
  obtain ⟨depth, rfl⟩ : ∃ d, depth = d + 1 := Nat.exists_eq_add_one.mpr (by omega)
  -- Each part takes one depth, which its own length pays for.
  induction h generalizing first a depth with
  | nil =>
    have hlength : 0 < (behindFirst close blanks last []).length := by simp [behindFirst]
    rw [hfirst.read _ (by omega), skipSpace_behindFirst_nil hclose.1 hlast, behindPart_close]
  | @cons cs b css bs hpart h ih =>
    rw [behindFirst_cons] at hdepth ⊢
    simp only [List.length_cons, List.length_append] at hdepth
    have hpos' := hpart.opens.length_pos
    obtain ⟨depth, rfl⟩ : ∃ d, depth = d + 1 := Nat.exists_eq_add_one.mpr (by omega)
    have hcomma (cs : List Char) : skipSpace (',' :: cs) = ',' :: cs := rfl
    have hskip : skipSpace (blanks ++ (cs ++ behindFirst close blanks last css) ++ rest) =
        cs ++ (behindFirst close blanks last css ++ rest) := by
      rw [List.append_assoc, List.append_assoc]
      exact (hpart.opens.append _).skipSpace_append hblanks
    rw [hfirst.read _ (by omega), List.cons_append, hcomma, behindPart_comma hclose.2, hskip,
      ih hpart hpos' depth (by omega)]
    rfl

def between (opening close : Char) (blanks last : List Char) : List (List Char) → List Char
  | [] => [opening, close]
  | first :: css => opening :: (blanks ++ (first ++ behindFirst close blanks last css))

theorem read_insideBrackets {parts : Nat → List Char → Except Fault (List α × List Char)}
    {make : List α → Value} (hclose : ¬isSpace close ∧ close ≠ ',') (hblanks : ∀ c ∈ blanks, isSpace c)
    (hlast : ∀ c ∈ last, isSpace c) {as : List α} (h : List.Forall₂ (SpellsPart close parts) css as)
    {opening : Char} {depth : Nat} (rest : List Char)
    (hdepth : (between opening close blanks last css).length ≤ depth + 1) :
    insideBrackets close make (parts depth)
      (skipSpace ((between opening close blanks last css).tail ++ rest)) = .ok (make as, rest) := by
  cases h with
  | nil =>
    have hskip : skipSpace ([close] ++ rest) = close :: rest := List.dropWhile_cons_of_neg hclose.1
    change insideBrackets close make (parts depth) (skipSpace ([close] ++ rest)) = _
    rw [hskip]
    exact if_pos rfl
  | @cons first a css as hfirst h =>
    have hopens := (hfirst.opens.append (behindFirst close blanks last css)).append rest
    have hlength : (first ++ behindFirst close blanks last css).length ≤ depth := by
      simp only [between, List.length_cons, List.length_append] at hdepth ⊢
      omega
    rw [between, List.tail_cons, List.append_assoc, hopens.skipSpace_append hblanks, insideBrackets,
      if_neg hopens.head?_ne, read_parts hclose hblanks hlast hfirst h rest hlength]
    rfl

theorem between_eq_cons (opening close : Char) (blanks last : List Char) (css : List (List Char)) :
    between opening close blanks last css =
      opening :: (between opening close blanks last css).tail := by
  cases css <;> rfl

/-! ### Lists and maps -/

theorem Spells.part (h : Spells n cs v) {fractions : Fractions} (hlevel : level + n ≤ mostLevels) :
    SpellsPart ']' (readElements fractions level) cs v := by
  refine ⟨h.opens, fun rest hdepth => ?_⟩
  rw [readElements_succ, h.read rest hlevel hdepth]
  rfl

theorem spells_list (hblanks : ∀ c ∈ blanks, isSpace c) (hlast : ∀ c ∈ last, isSpace c)
    (h : List.Forall₂ (Spells n) css vs) :
    Spells (n + 1) (between '[' ']' blanks last css) (.list vs) := by
  refine .of_succ ⟨'[', _, between_eq_cons .., by decide, by decide⟩
    fun {fractions level depth} rest hlevel hdepth => ?_
  have hparts : List.Forall₂ (SpellsPart ']' (readElements fractions (level + 1))) css vs :=
    h.imp fun _ _ hspells => hspells.part (by omega)
  rw [between_eq_cons, List.cons_append, readValue_list, if_neg (by omega)]
  exact read_insideBrackets (by decide) hblanks hlast hparts rest hdepth

def SpellsEntry (n : Nat) (colon cs : List Char) (e : Value × Value) : Prop :=
  ∃ s ds, cs = textLiteral s ++ (colon ++ ds) ∧ e.1 = .text (held s) ∧ Spells n ds e.2

variable {colon : List Char} {e : Value × Value} {entries : List (Value × Value)}

theorem readEntries_key {fractions : Fractions} {depth : Nat} (s : String) (cs : List Char) :
    readEntries fractions level (depth + 1) (textLiteral s ++ ':' :: cs) = (do
      let (v, rest) ← readValue fractions level depth (skipSpace cs)
      behindPart '\x7d' (.text (held s), v) (readEntries fractions level depth) (skipSpace rest)) := by
  rw [textLiteral_append, readEntries_quote, readText_escaped, ← textOf_char]
  rfl

theorem SpellsEntry.part (h : SpellsEntry n colon cs e)
    (hcolon : ∃ blanks, colon = ':' :: blanks ∧ ∀ c ∈ blanks, isSpace c) {fractions : Fractions}
    (hlevel : level + n ≤ mostLevels) : SpellsPart '\x7d' (readEntries fractions level) cs e := by
  obtain ⟨s, ds, rfl, hkey, hvalue⟩ := h
  obtain ⟨blanks, rfl, hblanks⟩ := hcolon
  obtain ⟨key, v⟩ := e
  obtain rfl : key = .text (held s) := hkey
  refine ⟨⟨'"', _, textLiteral_append .., by decide, by decide⟩, fun {depth} rest hdepth => ?_⟩
  have hskip : skipSpace (blanks ++ (ds ++ rest)) = ds ++ rest :=
    (hvalue.opens.append rest).skipSpace_append hblanks
  have hread : readValue fractions level depth (ds ++ rest) = .ok (v, rest) := by
    refine hvalue.read rest hlevel ?_
    simp only [List.length_append, List.length_cons] at hdepth
    omega
  rw [List.append_assoc, List.append_assoc, List.cons_append, readEntries_key, hskip, hread]
  rfl

theorem spells_map (hcolon : ∃ blanks, colon = ':' :: blanks ∧ ∀ c ∈ blanks, isSpace c)
    (hblanks : ∀ c ∈ blanks, isSpace c) (hlast : ∀ c ∈ last, isSpace c)
    (h : List.Forall₂ (SpellsEntry n colon) css entries)
    (htexts : ∀ e ∈ entries, ∃ s, e.1 = .text s) (hkeys : (entries.map Prod.fst).Nodup) :
    Spells (n + 1) (between '\x7b' '\x7d' blanks last css) (.map entries) := by
  refine .of_succ ⟨'\x7b', _, between_eq_cons .., by decide, by decide⟩
    fun {fractions level depth} rest hlevel hdepth => ?_
  have hparts : List.Forall₂ (SpellsPart '\x7d' (readEntries fractions (level + 1))) css entries :=
    h.imp fun _ _ hspells => hspells.part hcolon (by omega)
  rw [between_eq_cons, List.cons_append, readValue_map, if_neg (by omega),
    read_insideBrackets (by decide) hblanks hlast hparts rest hdepth,
    Value.ofEntries_of_nodup htexts hkeys]

/-! ### Layouts -/

structure Layout.IsStandard (l : Layout) : Prop where
  comma : l.comma = [',']
  colon : ∃ blanks, l.colon = ':' :: blanks ∧ ∀ c ∈ blanks, isSpace c

theorem isStandard_indented : indented.IsStandard :=
  ⟨rfl, [' '], rfl, List.forall_mem_singleton.mpr rfl⟩

theorem isSpace_of_mem_newline {c : Char} (h : c ∈ l.newline level) : isSpace c := by
  unfold Layout.newline at h
  split at h
  · cases h
  · obtain rfl | h := List.mem_cons.mp h
    · rfl
    · rw [List.eq_of_mem_replicate h]
      rfl

theorem flatten_bracket (hl : l.IsStandard) (level : Nat) (opening close : Char) (parts : List Pieces) :
    (l.bracket level opening close parts).flatten =
      between opening close (l.newline (level + 1)) (l.newline level) (parts.map List.flatten) := by
  cases parts with
  | nil => rfl
  | cons first parts =>
    simp [Layout.bracket, between, behindFirst, hl.comma, List.flatMap_def, Function.comp_def,
      List.flatten_flatten]

theorem bracket_map (hl : l.IsStandard) {opening close : Char} (hmark : mark ∉ [opening, close])
    (parts : List Pieces) : l.bracket level opening close (parts.map (List.map ofCharacters)) =
      (l.bracket level opening close parts).map ofCharacters := by
  have hnewline (level : Nat) : mark ∉ l.newline level := fun h =>
    absurd (isSpace_of_mem_newline h) (by decide)
  obtain ⟨hopening, hclose⟩ : mark ≠ opening ∧ mark ≠ close := by simpa using hmark
  have hbegin (level : Nat) : ofCharacters (opening :: l.newline level) = opening :: l.newline level :=
    ofCharacters_of_not_mem (List.not_mem_cons_of_ne_of_not_mem hopening (hnewline level))
  have hnext (level : Nat) :
      ofCharacters (l.comma ++ l.newline level) = l.comma ++ l.newline level := by
    rw [hl.comma]
    exact ofCharacters_of_not_mem (List.not_mem_cons_of_ne_of_not_mem (by decide) (hnewline level))
  have hend (level : Nat) : ofCharacters (l.newline level ++ [close]) = l.newline level ++ [close] :=
    ofCharacters_of_not_mem (by simpa using ⟨hnewline level, hclose⟩)
  cases parts with
  | nil => simp [Layout.bracket, ofCharacters_of_not_mem hmark]
  | cons first parts =>
    simp [Layout.bracket, hbegin, hnext, hend, List.flatMap_map, List.map_flatMap]

theorem ofCharacters_colon (hl : l.IsStandard) : ofCharacters l.colon = l.colon := by
  obtain ⟨blanks, hcolon, hblanks⟩ := hl.colon
  rw [hcolon]
  exact ofCharacters_of_not_mem (List.not_mem_cons_of_ne_of_not_mem (by decide) fun hmem =>
    absurd (hblanks mark hmem) (by decide))

/-! ### Documents -/

/-- A value with at most so many levels of brackets, made of texts of characters, truth values and
absent values; the keys of a map are texts, and no key is repeated. -/
inductive IsDocument : Nat → Value → Prop
  | null (n : Nat) : IsDocument n .null
  | bool (n : Nat) (b : Bool) : IsDocument n (.bool b)
  | text (n : Nat) {s : String} (h : IsWhole s) : IsDocument n (.text s)
  | list {n : Nat} {vs : List Value} (h : ∀ v ∈ vs, IsDocument n v) : IsDocument (n + 1) (.list vs)
  | map {n : Nat} {entries : List (Value × Value)} (hkeys : (entries.map Prod.fst).Nodup)
      (htexts : ∀ e ∈ entries, ∃ s, e.1 = .text s ∧ IsWhole s) (h : ∀ e ∈ entries, IsDocument n e.2) :
      IsDocument (n + 1) (.map entries)

def Writes (n : Nat) (pieces : Pieces) (v : Value) : Prop :=
  ∃ spelled : Pieces, pieces = spelled.map ofCharacters ∧ Spells n spelled.flatten v

theorem writes_singleton (h : Spells n cs v) : Writes n [ofCharacters cs] v := by
  refine ⟨[cs], rfl, ?_⟩
  rwa [List.flatten_singleton]

theorem exists_elements (h : ∀ v ∈ vs, Writes n (write l level v) v) :
    ∃ parts : List Pieces, writeElements l level vs = parts.map (List.map ofCharacters) ∧
      List.Forall₂ (Spells n) (parts.map List.flatten) vs := by
  induction vs with
  | nil => exact ⟨[], rfl, .nil⟩
  | cons v vs ih =>
    obtain ⟨⟨spelled, hpieces, hspells⟩, hrest⟩ := List.forall_mem_cons.mp h
    obtain ⟨parts, hparts, hall⟩ := ih hrest
    refine ⟨spelled :: parts, ?_, .cons hspells hall⟩
    rw [writeElements, hpieces, hparts]
    rfl

theorem exists_entries (hl : l.IsStandard) (htexts : ∀ e ∈ entries, ∃ s, e.1 = .text s ∧ IsWhole s)
    (h : ∀ e ∈ entries, Writes n (write l level e.2) e.2) :
    ∃ parts : List Pieces, writeEntries l level entries = parts.map (List.map ofCharacters) ∧
      List.Forall₂ (SpellsEntry n l.colon) (parts.map List.flatten) entries := by
  induction entries with
  | nil => exact ⟨[], rfl, .nil⟩
  | cons e entries ih =>
    obtain ⟨⟨_, hkey, s, rfl⟩, hkeys⟩ := List.forall_mem_cons.mp htexts
    obtain ⟨⟨spelled, hpieces, hspells⟩, hrest⟩ := List.forall_mem_cons.mp h
    obtain ⟨parts, hparts, hall⟩ := ih hkeys hrest
    obtain ⟨key, v⟩ := e
    obtain rfl : key = .text (held s) := hkey
    refine ⟨(textLiteral s :: l.colon :: spelled) :: parts, ?_, .cons ⟨s, _, rfl, rfl, hspells⟩ hall⟩
    rw [writeEntries, Value.display, textLiteral_held, hpieces, hparts, List.map_cons, List.map_cons,
      List.map_cons, ofCharacters_colon hl]

theorem IsDocument.writes (hl : l.IsStandard) (h : IsDocument n v) (level : Nat) :
    Writes n (write l level v) v := by
  have hnewline {level : Nat} : ∀ c ∈ l.newline level, isSpace c := fun _ => isSpace_of_mem_newline
  induction h generalizing level with
  | null => exact writes_singleton (spells_null _)
  | bool _ b =>
    have hword : ofCharacters (if b then "true" else "false").toList =
        (if b then "true" else "false").toList := by
      cases b <;> rfl
    rw [write, ← hword]
    exact writes_singleton (spells_bool _ b)
  | text _ h =>
    obtain ⟨s, rfl⟩ := h
    rw [write, textLiteral_held]
    exact writes_singleton (spells_text _ s)
  | list _ ih =>
    obtain ⟨parts, hparts, hall⟩ := exists_elements fun v hv => ih v hv (level + 1)
    refine ⟨l.bracket level '[' ']' parts, ?_, ?_⟩
    · rw [write, hparts, bracket_map hl (by decide)]
    · rw [flatten_bracket hl]
      exact spells_list hnewline hnewline hall
  | map hkeys htexts _ ih =>
    obtain ⟨parts, hparts, hall⟩ := exists_entries hl htexts fun e he => ih e he (level + 1)
    refine ⟨l.bracket level '\x7b' '\x7d' parts, ?_, ?_⟩
    · rw [write, hparts, bracket_map hl (by decide)]
    · rw [flatten_bracket hl]
      exact spells_map hl.colon hnewline hnewline hall (fun e he => (htexts e he).imp fun _ => And.left)
        hkeys

theorem Spells.read_eq (h : Spells n cs v) (hn : n ≤ mostLevels) (fractions : Fractions) :
    Json.read fractions cs = .ok v := by
  have hskip : skipSpace cs = cs := by
    change skipSpace ([] ++ cs) = cs
    exact h.opens.skipSpace_append nofun
  have hread : readValue fractions 0 (2 * cs.length + 1) (cs ++ []) = .ok (v, []) :=
    h.read [] (by omega) (by omega)
  rw [List.append_nil] at hread
  rw [Json.read, hskip, hread]
  rfl

/-- A document is read off the pieces of its indented form, put together. -/
theorem exists_prettyPieces (h : IsDocument n v) (hn : n ≤ mostLevels) :
    ∃ pieces : List String, prettyPieces v = pieces.map held ∧
      ∀ fractions, read fractions (String.join pieces).toList = .ok v := by
  obtain ⟨spelled, hpieces, hspells⟩ := h.writes isStandard_indented 0
  refine ⟨spelled.map String.ofList, ?_, fun fractions => ?_⟩
  · rw [prettyPieces, hpieces, List.map_map, List.map_map]
    refine List.map_congr_left fun cs _ => ?_
    rw [Function.comp_apply, Function.comp_apply, held, String.toList_ofList]
  · have hjoin : (String.join (spelled.map String.ofList)).toList = spelled.flatten := by
      simp [String.toList_join, List.flatMap_def]
    rw [hjoin]
    exact hspells.read_eq hn fractions

end Json

end Provision
