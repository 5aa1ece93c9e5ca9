/-
  ErobCanopen.Dictionary.Sections
  ───────────────────────────────
  **WHAT AN OBJECT SECTION OF AN EDS TEXT MAKES `get_object_size` ANSWER.**

  `Dictionary.Eds` runs `parse_eds_file` over any text and `Dictionary.Lines` says what each
  kind of line does.  This module follows the parser over a whole object section as EDS files
  write it: the header `[<index>]` or `[<index>sub<subindex>]`, lines the parser passes over,
  `DataType=0x<type>`, more such lines, and the `AccessType=` line that closes the section.

  From ANY parser state a section has the same effect, since its header resets the key and
  the data type; so it may follow any text that ends a line and precede any text at all.
  Its entry is appended when fewer than 100 are stored, and as the lookup takes the FIRST
  entry with the key while later lines only append, later text never changes its answer.

  Main results:
    * `parse_eds_lines_declaration` — a section, read from any state, appends its entry when
      there is room;
    * `declared_object_size` — the size the lookup answers for the object of a section;
    * `parse_eds_file_edsText` — a text of sections stores the first 100 of their entries.
-/
import ErobCanopen.Dictionary.Lines
namespace ErobCanopen

/-! ## §1. Object sections. -/

/-- An object section as an EDS text writes it: the header `[<index>]` or
    `[<index>sub<subindex>]`, lines passed over, `DataType=0x<type>`, more lines passed over,
    and `AccessType=<access>`, for any `access` that does not name `DataType=`; each line fits
    the 256-byte buffer and ends with `\n` or `\r\n`. -/
structure Declaration where
  index_text : Numeral 16
  subindex_text : Option (Numeral 10)
  data_type_text : Numeral 16
  before : List (List Char × LineEnd)
  after : List (List Char × LineEnd)
  access : List Char
  header_end : LineEnd
  data_type_end : LineEnd
  access_end : LineEnd
  before_inert : ∀ l ∈ before, Inert l.1
  after_inert : ∀ l ∈ after, Inert l.1
  access_plain : Plain access
  access_untyped : strstr access "DataType=".toList = false
  header_fits : index_text.text.length + subindex_text.elim 0 (fun s => s.text.length + 3) ≤ 252
  data_type_fits : data_type_text.text.length ≤ 243
  access_fits : access.length ≤ 243

namespace Declaration

/-- The object id between the brackets of the header. -/
def objectId (d : Declaration) : List Char :=
  d.index_text.text ++ d.subindex_text.elim [] fun s => "sub".toList ++ s.text

def header (d : Declaration) : List Char := '[' :: (d.objectId ++ [']'])

def dataTypeLine (d : Declaration) : List Char := "DataType=0x".toList ++ d.data_type_text.text

def accessLine (d : Declaration) : List Char := "AccessType=".toList ++ d.access

/-- The lines of the section, in order, each with its end. -/
def lines (d : Declaration) : List (List Char × LineEnd) :=
  (d.header, d.header_end) :: (d.before ++ (d.dataTypeLine, d.data_type_end) ::
    (d.after ++ [(d.accessLine, d.access_end)]))

/-- The section as text. -/
def text (d : Declaration) : List Char := endLines d.lines

/-- The object the section declares, as `sscanf` stores its key. -/
def index (d : Declaration) : BitVec 16 := d.index_text.stored 16

def subindex (d : Declaration) : BitVec 8 := d.subindex_text.elim 0 (Numeral.stored 8)

/-- The declared data type. -/
def data_type (d : Declaration) : BitVec 16 := d.data_type_text.stored 16

/-- The data type the parser keeps for the section: UNSIGNED16 for the control word, the
    declared one otherwise. -/
def storedType (d : Declaration) : BitVec 16 := if d.index = 0x6040 then 6 else d.data_type

/-- The entry the section stores when there is room: none for data type 0. -/
def entry (d : Declaration) : Option ObjectDictEntry :=
  if d.storedType = 0 then none
  else some ⟨d.index, d.subindex, get_data_type_size d.storedType⟩

/-- The section's header. -/
def objectHeader (d : Declaration) : ObjectHeader := ⟨d.index_text, d.subindex_text, d.header_fits⟩

/-- The section's `DataType=` and `AccessType=` lines. -/
def dataTypeBody (d : Declaration) : BodyLine := .dataType d.data_type_text d.data_type_fits

def accessBody (d : Declaration) : BodyLine :=
  .accessType d.access d.access_plain d.access_untyped d.access_fits

/-- Every line of the section is plain and fits the buffer. -/
theorem lines_fit (d : Declaration) : ∀ l ∈ d.lines, Plain l.1 ∧ l.1.length ≤ 254 := by
  intro l hl
  simp only [lines, List.mem_cons, List.mem_append, List.not_mem_nil, or_false] at hl
  rcases hl with rfl | hl | rfl | hl | rfl
  · exact ⟨d.objectHeader.line_plain, d.objectHeader.line_fits⟩
  · exact ⟨(d.before_inert l hl).1, (d.before_inert l hl).2.1⟩
  · exact ⟨d.dataTypeBody.text_plain, d.dataTypeBody.text_fits⟩
  · exact ⟨(d.after_inert l hl).1, (d.after_inert l hl).2.1⟩
  · exact ⟨d.accessBody.text_plain, d.accessBody.text_fits⟩

/-- The header opens the section whatever state the parser is in. -/
theorem parse_eds_line_header (p : EdsParser) (d : Declaration) :
    parse_eds_line p (d.header ++ ['\n']) =
      { p with current_index := d.index, current_subindex := d.subindex,
               current_data_type := 0, in_object := true } :=
  d.objectHeader.parse_eds_line_header p

theorem parse_eds_line_dataType (d : Declaration) {p : EdsParser} (hp : p.in_object = true) :
    parse_eds_line p (d.dataTypeLine ++ ['\n']) =
      { p with current_data_type := if p.current_index = 0x6040 then 6 else d.data_type } := by
  rw [show d.dataTypeLine = d.dataTypeBody.text from rfl, dataTypeBody,
    BodyLine.parse_eds_line_dataType, if_pos hp]
  rfl

theorem parse_eds_line_access (d : Declaration) {p : EdsParser} (hp : p.in_object = true) :
    parse_eds_line p (d.accessLine ++ ['\n']) =
      { p with in_object := false,
               object_dict :=
                 if h : p.current_data_type ≠ 0 ∧ p.object_dict.entries.length < 100 then
                   p.object_dict.push ⟨p.current_index, p.current_subindex,
                     get_data_type_size p.current_data_type⟩ h.2
                 else p.object_dict } := by
  rw [show d.accessLine = d.accessBody.text from rfl, accessBody,
    BodyLine.parse_eds_line_accessType, if_pos hp]

end Declaration

/-- A whole section, read from any state, appends its entry when there is room. -/
theorem parse_eds_lines_declaration (p : EdsParser) (d : Declaration) :
    (parse_eds_lines p (d.lines.map (·.1 ++ ['\n']))).object_dict.entries =
      (p.object_dict.entries ++ d.entry.toList).take 100 := by
  simp only [Declaration.lines, List.map_cons, List.map_append, List.map_nil,
    parse_eds_lines_cons, parse_eds_lines_append, parse_eds_lines_nil]
  rw [Declaration.parse_eds_line_header, parse_eds_lines_inert d.before_inert,
    Declaration.parse_eds_line_dataType d rfl, parse_eds_lines_inert d.after_inert,
    Declaration.parse_eds_line_access d rfl]
  have hb := p.object_dict.bounded
  simp only [Declaration.entry, Declaration.storedType]
  by_cases h0 : (if d.index = 0x6040 then (6 : BitVec 16) else d.data_type) = 0
  · rw [dif_neg (fun h => h.1 h0), if_pos h0, Option.toList_none, List.append_nil,
      List.take_of_length_le hb]
  · by_cases hl : p.object_dict.entries.length < 100
    · rw [dif_pos ⟨h0, hl⟩, if_neg h0, Option.toList_some, ObjectDict.push_entries,
        List.take_of_length_le (by simp; omega)]
    · rw [dif_neg (fun h => hl h.2), List.take_left' (by omega)]

/-! ## §2. The size of a declared object. -/

theorem parse_eds_line_entries (p : EdsParser) (buf : List Char) :
    ∃ more, (parse_eds_line p buf).object_dict.entries = p.object_dict.entries ++ more := by
  rcases parse_eds_line_cases p buf with ⟨i, s, h⟩ | ⟨t, h⟩ | h | ⟨hl, hne, h⟩ | h <;>
    rw [h] <;> first | exact ⟨[], (List.append_nil _).symm⟩ | exact ⟨_, rfl⟩

/-- Entries are only ever appended: what a text stored stays first. -/
theorem parse_eds_lines_entries (p : EdsParser) (bufs : List (List Char)) :
    ∃ more, (parse_eds_lines p bufs).object_dict.entries = p.object_dict.entries ++ more := by
  induction bufs generalizing p with
  | nil => exact ⟨[], (List.append_nil _).symm⟩
  | cons b bs ih =>
    obtain ⟨m₁, h₁⟩ := parse_eds_line_entries p b
    obtain ⟨m₂, h₂⟩ := ih (parse_eds_line p b)
    exact ⟨m₁ ++ m₂, by rw [parse_eds_lines_cons, h₂, h₁, List.append_assoc]⟩

/-- The lookup answers the size of the first entry with the key. -/
theorem get_object_size_first {od : ObjectDict} {pre more : List ObjectDictEntry}
    (e : ObjectDictEntry) (h : od.entries = pre ++ e :: more)
    (hpre : ∀ e' ∈ pre, ¬(e'.index = e.index ∧ e'.subindex = e.subindex)) :
    get_object_size od e.index e.subindex = e.data_size := by
  unfold get_object_size
  rw [h, List.find?_append, List.find?_eq_none.mpr (by simpa using hpre), Option.none_or,
    List.find?_cons_of_pos _ (by simp)]

/-- A section stored with room to spare fixes the lookup of its key, whatever text follows. -/
theorem get_object_size_declared (pre post : List Char) (d : Declaration)
    (hpre : ∀ c ∈ pre.getLast?, c = '\n')
    (hnew : ∀ e ∈ (parse_eds_file ObjectDict.empty (some pre)).2.entries,
      ¬(e.index = d.index ∧ e.subindex = d.subindex))
    (hroom : (parse_eds_file ObjectDict.empty (some pre)).2.entries.length < 100)
    (hstored : d.storedType ≠ 0) :
    get_object_size (parse_eds_file ObjectDict.empty (some (pre ++ d.text ++ post))).2
      d.index d.subindex = get_data_type_size d.storedType := by
  let P := parse_eds_lines (EdsParser.start ObjectDict.empty) (fgets_lines 256 [] pre)
  have hread : parse_eds_lines (EdsParser.start ObjectDict.empty)
      (fgets_lines 256 [] (pre ++ d.text ++ post)) =
      parse_eds_lines (parse_eds_lines P (d.lines.map (·.1 ++ ['\n'])))
        (fgets_lines 256 [] post) := by
    rw [List.append_assoc, fgets_lines_append 256 hpre, parse_eds_lines_append, Declaration.text,
      parse_eds_lines_endLines _ post _ d.lines_fit]
  have hd := parse_eds_lines_declaration P d
  obtain ⟨more, hmore⟩ := parse_eds_lines_entries
    (parse_eds_lines P (d.lines.map (·.1 ++ ['\n']))) (fgets_lines 256 [] post)
  have hentry : d.entry = some ⟨d.index, d.subindex, get_data_type_size d.storedType⟩ :=
    if_neg hstored
  rw [hentry, Option.toList_some,
    List.take_of_length_le (by rw [List.length_append, List.length_singleton]; exact hroom)] at hd
  rw [hd, List.append_assoc, List.singleton_append] at hmore
  rw [parse_eds_file, hread]
  exact get_object_size_first _ hmore hnew

theorem declared_object_size (pre post : List Char) (d : Declaration)
    (hpre : ∀ c ∈ pre.getLast?, c = '\n')
    (hnew : ∀ e ∈ (parse_eds_file ObjectDict.empty (some pre)).2.entries,
      ¬(e.index = d.index ∧ e.subindex = d.subindex))
    (hroom : (parse_eds_file ObjectDict.empty (some pre)).2.entries.length < 100)
    (htype : 1 ≤ d.data_type.toNat ∧ d.data_type.toNat ≤ 7) :
    get_object_size (parse_eds_file ObjectDict.empty (some (pre ++ d.text ++ post))).2
        d.index d.subindex =
      if d.index = 0x6040 then 2
      else if d.data_type.toNat ∈ [1, 2, 5] then 1
      else if d.data_type.toNat ∈ [3, 6] then 2 else 4 := by
  have hstored : d.storedType ≠ 0 := by
    unfold Declaration.storedType
    split
    · decide
    · intro h
      simp [h] at htype
  rw [get_object_size_declared pre post d hpre hnew hroom hstored, Declaration.storedType]
  split
  · rfl
  · unfold get_data_type_size
    have : d.data_type.toNat = 1 ∨ d.data_type.toNat = 2 ∨ d.data_type.toNat = 3 ∨
        d.data_type.toNat = 4 ∨ d.data_type.toNat = 5 ∨ d.data_type.toNat = 6 ∨
        d.data_type.toNat = 7 := by omega
    rcases this with h | h | h | h | h | h | h <;> simp [h]

/-- `[<index>]`, `DataType=0x<data_type>` and `AccessType=rw`, with nothing between, each
    line ended by `\n`. -/
def Declaration.simple (index_text data_type_text : Numeral 16)
    (hi : index_text.text.length ≤ 252) (ht : data_type_text.text.length ≤ 243) :
    Declaration :=
  ⟨index_text, none, data_type_text, [], [], "rw".toList, .lf, .lf, .lf, by simp, by simp,
    by decide, by decide, by simpa using hi, ht, by decide⟩

/-- `[2000]` declared UNSIGNED8 (`DataType=0x0005`). -/
def unsigned8Object : Declaration :=
  .simple ⟨"2000".toList, by decide, by decide⟩ ⟨"0005".toList, by decide, by decide⟩
    (by decide) (by decide)

theorem unsigned8_object_size :
    1 ≤ unsigned8Object.data_type.toNat ∧ unsigned8Object.data_type.toNat ≤ 7 ∧
    get_object_size (parse_eds_file ObjectDict.empty (some ([] ++ unsigned8Object.text ++ []))).2
      unsigned8Object.index unsigned8Object.subindex = 1 :=
  ⟨by decide, by decide,
    (declared_object_size [] [] unsigned8Object (fun _ h => nomatch h) (by decide) (by decide)
      ⟨by decide, by decide⟩).trans (by decide)⟩

/-! ## §3. Texts of sections. -/

/-- The text of a list of sections. -/
def edsText (ds : List Declaration) : List Char := endLines (ds.flatMap Declaration.lines)

theorem take_append_take (n : Nat) (l r : List ObjectDictEntry) :
    (l.take n ++ r).take n = (l ++ r).take n := by
  simp only [List.take_append_eq_append_take, List.take_take, List.length_take, min_self]
  congr 2
  omega

theorem filterMap_entry_cons (d : Declaration) (ds : List Declaration) :
    (d :: ds).filterMap Declaration.entry = d.entry.toList ++ ds.filterMap Declaration.entry := by
  cases h : d.entry <;> simp [h]

/-- Sections one after the other store their entries in order, the first 100 of them. -/
theorem parse_eds_lines_declarations (p : EdsParser) (ds : List Declaration) :
    (parse_eds_lines p ((ds.flatMap Declaration.lines).map (·.1 ++ ['\n']))).object_dict.entries =
      (p.object_dict.entries ++ ds.filterMap Declaration.entry).take 100 := by
  induction ds generalizing p with
  | nil => simp [List.take_of_length_le p.object_dict.bounded]
  | cons d ds ih =>
    rw [List.flatMap_cons, List.map_append, parse_eds_lines_append, ih,
      parse_eds_lines_declaration, take_append_take, filterMap_entry_cons, List.append_assoc]

theorem parse_eds_file_edsText (ds : List Declaration) :
    (parse_eds_file ObjectDict.empty (some (edsText ds))).2.entries =
      (ds.filterMap Declaration.entry).take 100 := by
  have h := parse_eds_lines_endLines (EdsParser.start ObjectDict.empty) []
    (ds.flatMap Declaration.lines) fun l hl => by
      obtain ⟨d, -, hl⟩ := List.mem_flatMap.mp hl
      exact d.lines_fit l hl
  rw [List.append_nil] at h
  rw [parse_eds_file, edsText, h]
  simp only [fgets_lines, if_true, parse_eds_lines_nil, parse_eds_lines_declarations]
  rfl

/-- `[2001]` declared UNSIGNED8 (`DataType=0x0005`). -/
def secondUnsigned8Object : Declaration :=
  .simple ⟨"2001".toList, by decide, by decide⟩ ⟨"0005".toList, by decide, by decide⟩
    (by decide) (by decide)

/-- `[2002]` declared REAL32 (`DataType=0x0008`). -/
def real32Object : Declaration :=
  .simple ⟨"2002".toList, by decide, by decide⟩ ⟨"0008".toList, by decide, by decide⟩
    (by decide) (by decide)

/-- The lookup reads the dictionary only through its entries. -/
theorem get_object_size_congr {od : ObjectDict} (od' : ObjectDict) (h : od.entries = od'.entries)
    (index : BitVec 16) (subindex : BitVec 8) :
    get_object_size od index subindex = get_object_size od' index subindex := by
  unfold get_object_size
  rw [h]

/-- Behind 100 stored entries the UNSIGNED8 object `[2001]` is dropped and answers the
    default 4; the REAL32 object `[2002]` answers 8. -/
theorem dropped_and_real32_object_sizes :
    get_object_size (parse_eds_file ObjectDict.empty
        (some (edsText (List.replicate 100 unsigned8Object ++ [secondUnsigned8Object])))).2
        0x2001 0 = 4 ∧
    get_object_size (parse_eds_file ObjectDict.empty (some (edsText [real32Object]))).2
        0x2002 0 = 8 := by
  have hA : unsigned8Object.entry = some ⟨0x2000, 0, 1⟩ := by decide
  have hB : secondUnsigned8Object.entry = some ⟨0x2001, 0, 1⟩ := by decide
  constructor
  · rw [get_object_size_congr ⟨List.replicate 100 ⟨0x2000, 0, 1⟩, by simp⟩ (by
      rw [parse_eds_file_edsText, List.filterMap_append, List.filterMap_replicate_of_some hA,
        List.filterMap_cons_some hB, List.filterMap_nil,
        List.take_left' (List.length_replicate 100 _)])]
    unfold get_object_size
    rw [List.find?_replicate_of_neg (by decide)]
    decide
  · rw [get_object_size_congr ⟨[⟨0x2002, 0, 8⟩], by simp⟩
      (by rw [parse_eds_file_edsText]; decide)]
    decide

end ErobCanopen
