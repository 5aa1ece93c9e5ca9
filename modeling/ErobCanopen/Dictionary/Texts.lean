/-
  ErobCanopen.Dictionary.Texts
  ────────────────────────────
  **WHAT `parse_eds_file` STORES FOR A WHOLE EDS TEXT, SECTION BY SECTION.**

  An EDS text is a preamble followed by sections.  A section opens with a header line — an
  object's `[<index>]` or `[<index>sub<subindex>]`, or another `[<name>]` such as
  `[FileInfo]` — and goes on with `DataType=0x<type>` lines, `AccessType=` lines and lines the
  parser passes over, in any number and any order; each line ends with `\n` or `\r\n`.

  An object header sets both the index and the subindex, so the entry of an object section is
  keyed by its own header.  Inside the section the data type is the last one declared
  (UNSIGNED16 for the control word, whatever is declared), and the FIRST `AccessType=` line
  closes the section: its entry is stored when that type is non-zero and fewer than 100 are
  stored, and the rest of the section is passed over.  A header of another form keys the
  section with whatever `sscanf` leaves; such a section is taken here only when it stores
  nothing, having no `DataType=` line before its first `AccessType=` line.

  Main results:
    * `parse_eds_lines_body` — what the lines of a section do once its header has opened it;
    * `parse_eds_lines_section` — a section, read from any state, appends its entry if any;
    * `parse_eds_file_sections` — a whole text stores the entries of its object sections, in
      order, the first 100 of them.
-/
import ErobCanopen.Dictionary.Sections

namespace ErobCanopen

/-! ## §1. Sections. -/

/-- The data type the parser holds when the first `AccessType=` line of `body` closes a
    section of the object `index`, from `t` on: each `DataType=` line sets it, to UNSIGNED16
    for the control word; `none` when no line closes the section. -/
def closingType (index t : BitVec 16) : List BodyLine → Option (BitVec 16)
  | [] => none
  | .dataType type_text _ :: rest =>
    closingType index (if index = 0x6040 then 6 else type_text.stored 16) rest
  | .accessType .. :: _ => some t
  | .inert .. :: rest => closingType index t rest

/-- Whether a `DataType=` line comes before the first `AccessType=` line. -/
def typedBeforeAccess : List BodyLine → Bool
  | [] => false
  | .dataType .. :: _ => true
  | .accessType .. :: _ => false
  | .inert .. :: rest => typedBeforeAccess rest

/-- A section header: an object's, or another `[<object id>]`. -/
inductive Header where
  | object (h : ObjectHeader)
  | other (object_id : List Char)
      (chars : ∀ c ∈ object_id, c ≠ ']' ∧ c ≠ '\n' ∧ c ≠ '\r' ∧ c ≠ '\x00')
      (fits : object_id.length ≤ 252)

namespace Header

def line : Header → List Char
  | object h => h.line
  | other object_id _ _ => '[' :: (object_id ++ [']'])

def isObject : Header → Bool
  | object _ => true
  | other .. => false

end Header

/-- Lines of a section, each with its end. -/
def bodyLines (body : List (BodyLine × LineEnd)) : List (List Char × LineEnd) :=
  body.map fun b => (b.1.text, b.2)

/-- A section: its header, then its lines, each line ended by `\n` or `\r\n`.  One under
    another header is taken only when it has no `DataType=` line before its first `AccessType=`
    line. -/
structure EdsSection where
  header : Header
  header_end : LineEnd
  body : List (BodyLine × LineEnd)
  other_untyped : header.isObject = false → typedBeforeAccess (body.map Prod.fst) = false

namespace EdsSection

/-- The lines of the section, in order. -/
def lines (s : EdsSection) : List (List Char × LineEnd) :=
  (s.header.line, s.header_end) :: bodyLines s.body

/-- The entry an object section stores when there is room: under its own header's key, with
    the size of the type held when its first `AccessType=` line closes it, if that type is
    non-zero. -/
def entry (s : EdsSection) : Option ObjectDictEntry :=
  match s.header with
  | .object h =>
    (closingType h.index 0 (s.body.map Prod.fst)).bind fun t =>
      if t = 0 then none else some ⟨h.index, h.subindex, get_data_type_size t⟩
  | .other .. => none

end EdsSection

/-- A text: lines before the first section, then the sections. -/
def edsFile (preamble : List (BodyLine × LineEnd)) (ss : List EdsSection) : List Char :=
  endLines (bodyLines preamble ++ ss.flatMap EdsSection.lines)

/-! ## §2. One section. -/

theorem Header.line_plain : ∀ hd : Header, Plain hd.line
  | object h => h.line_plain
  | other object_id chars _ => by
    intro c hc
    rcases List.mem_cons.mp hc with rfl | hc
    · decide
    rcases List.mem_append.mp hc with hc | hc
    · exact (chars c hc).2
    · obtain rfl := List.mem_singleton.mp hc
      decide

theorem Header.line_fits : ∀ hd : Header, hd.line.length ≤ 254
  | object h => h.line_fits
  | other object_id chars fits => by
    simp only [line, List.length_cons, List.length_append, List.length_nil]
    omega

/-- The lines of a section are plain and fit the buffer, and are read as if each ended with
    `\n`. -/
theorem bodyLines_fit (body : List (BodyLine × LineEnd)) :
    ∀ l ∈ bodyLines body, Plain l.1 ∧ l.1.length ≤ 254 := by
  intro l hl
  obtain ⟨b, -, rfl⟩ := List.mem_map.mp hl
  exact ⟨b.1.text_plain, b.1.text_fits⟩

theorem bodyLines_read (body : List (BodyLine × LineEnd)) :
    (bodyLines body).map (·.1 ++ ['\n']) =
      ((body.map Prod.fst).map BodyLine.text).map (· ++ ['\n']) := by
  simp [bodyLines]

theorem EdsSection.lines_fit (s : EdsSection) : ∀ l ∈ s.lines, Plain l.1 ∧ l.1.length ≤ 254 := by
  intro l hl
  rcases List.mem_cons.mp hl with rfl | hl
  · exact ⟨s.header.line_plain, s.header.line_fits⟩
  · exact bodyLines_fit s.body l hl

/-- A header opens its section whatever state the parser is in; an object header sets the
    section's own key. -/
theorem Header.parse_eds_line_line (p : EdsParser) :
    ∀ hd : Header, ∃ i s, parse_eds_line p (hd.line ++ ['\n']) =
      { p with current_index := i, current_subindex := s, current_data_type := 0,
               in_object := true } ∧
      ∀ h, hd = .object h → i = h.index ∧ s = h.subindex
  | object h => ⟨_, _, h.parse_eds_line_header p, fun _ he => by cases he; exact ⟨rfl, rfl⟩⟩
  | other object_id chars fits => by
    have hid : headerId (other object_id chars fits).line = some object_id := by
      have hc : ∀ c ∈ object_id, (c != ']') = true := fun c hc => by simp [(chars c hc).1]
      simp [line, headerId, List.takeWhile_append_of_pos hc]
    refine ⟨(headerKey p.current_index p.current_subindex object_id).1,
      (headerKey p.current_index p.current_subindex object_id).2, ?_, fun _ he => nomatch he⟩
    simp only [parse_eds_line, cut_plain (line_plain _) (.inr rfl) [], hid]

/-- Outside a section its lines do nothing. -/
theorem parse_eds_line_closed {p : EdsParser} (hp : p.in_object = false) :
    ∀ l : BodyLine, parse_eds_line p (l.text ++ ['\n']) = p
  | .dataType .. => by rw [BodyLine.parse_eds_line_dataType, hp, if_neg Bool.false_ne_true]
  | .accessType .. => by rw [BodyLine.parse_eds_line_accessType, hp, if_neg Bool.false_ne_true]
  | .inert _ h => parse_eds_line_inert h p

theorem parse_eds_lines_closed {p : EdsParser} (hp : p.in_object = false) :
    ∀ body : List BodyLine, parse_eds_lines p ((body.map BodyLine.text).map (· ++ ['\n'])) = p
  | [] => rfl
  | l :: body => by
    rw [List.map_cons, List.map_cons, parse_eds_lines_cons, parse_eds_line_closed hp,
      parse_eds_lines_closed hp body]

/-- The lines of an opened section: when its first `AccessType=` line closes it, the entry of
    the type then held is appended if it is non-zero and there is room. -/
theorem parse_eds_lines_body :
    ∀ (body : List BodyLine) {p : EdsParser}, p.in_object = true →
      (parse_eds_lines p ((body.map BodyLine.text).map (· ++ ['\n']))).object_dict.entries =
        (p.object_dict.entries ++
          ((closingType p.current_index p.current_data_type body).bind fun t =>
            if t = 0 then none
            else some (ObjectDictEntry.mk p.current_index p.current_subindex
              (get_data_type_size t))).toList).take 100
  | [], p, _ => by
    simp only [List.map_nil, parse_eds_lines_nil, closingType, Option.none_bind,
      Option.toList_none, List.append_nil]
    exact (List.take_of_length_le p.object_dict.bounded).symm
  | .dataType type_text fits :: body, p, hp => by
    rw [List.map_cons, List.map_cons, parse_eds_lines_cons, BodyLine.parse_eds_line_dataType,
      if_pos hp]
    exact parse_eds_lines_body body hp
  | .accessType access plain untyped fits :: body, p, hp => by
    rw [List.map_cons, List.map_cons, parse_eds_lines_cons, BodyLine.parse_eds_line_accessType,
      if_pos hp, parse_eds_lines_closed rfl]
    have hb := p.object_dict.bounded
    simp only [closingType, Option.some_bind]
    by_cases h0 : p.current_data_type = 0
    · rw [dif_neg (fun h => h.1 h0), if_pos h0, Option.toList_none, List.append_nil,
        List.take_of_length_le hb]
    · by_cases hl : p.object_dict.entries.length < 100
      · rw [dif_pos ⟨h0, hl⟩, if_neg h0, Option.toList_some, ObjectDict.push_entries,
          List.take_of_length_le (by simp; omega)]
      · rw [dif_neg (fun h => hl h.2), List.take_left' (by omega)]
  | .inert line h :: body, p, hp => by
    rw [List.map_cons, List.map_cons, parse_eds_lines_cons,
      show (BodyLine.inert line h).text = line from rfl, parse_eds_line_inert h]
    exact parse_eds_lines_body body hp

/-- With no `DataType=` line before the first `AccessType=` line, the type the section closes
    with is the one it opened with. -/
theorem closingType_of_untyped (index t : BitVec 16) :
    ∀ body : List BodyLine, typedBeforeAccess body = false →
      closingType index t body = none ∨ closingType index t body = some t
  | [], _ => .inl rfl
  | .dataType .. :: _, h => nomatch h
  | .accessType .. :: _, _ => .inr rfl
  | .inert .. :: body, h => closingType_of_untyped index t body h

/-- A section, read from any state, appends its entry when there is room. -/
theorem parse_eds_lines_section (p : EdsParser) (s : EdsSection) :
    (parse_eds_lines p (s.lines.map (·.1 ++ ['\n']))).object_dict.entries =
      (p.object_dict.entries ++ s.entry.toList).take 100 := by
  obtain ⟨i, k, hhead, hkey⟩ := s.header.parse_eds_line_line p
  rw [EdsSection.lines, List.map_cons, parse_eds_lines_cons, hhead, bodyLines_read,
    parse_eds_lines_body _ rfl]
  obtain ⟨hd, e, body, hother⟩ := s
  cases hd with
  | object h =>
    obtain ⟨rfl, rfl⟩ := hkey h rfl
    rfl
  | other object_id chars fits =>
    have hnone : (closingType i 0 (body.map Prod.fst)).bind (fun t => if t = 0 then none
        else some (⟨i, k, get_data_type_size t⟩ : ObjectDictEntry)) = none := by
      rcases closingType_of_untyped i 0 _ (hother rfl) with h | h <;> rw [h] <;> rfl
    dsimp only
    rw [hnone]
    rfl

/-! ## §3. Whole texts. -/

/-- Sections one after the other store their entries in order, the first 100 of them. -/
theorem parse_eds_lines_sections (p : EdsParser) (ss : List EdsSection) :
    (parse_eds_lines p ((ss.flatMap EdsSection.lines).map (·.1 ++ ['\n']))).object_dict.entries =
      (p.object_dict.entries ++ ss.filterMap EdsSection.entry).take 100 := by
  induction ss generalizing p with
  | nil => simp [List.take_of_length_le p.object_dict.bounded]
  | cons s ss ih =>
    rw [List.flatMap_cons, List.map_append, parse_eds_lines_append, ih, parse_eds_lines_section,
      take_append_take, List.filterMap_cons]
    cases s.entry <;> simp

/-- For every text made of a preamble and sections — each an object section under
    `[<index>]` or `[<index>sub<subindex>]`, or a section under another header with no
    `DataType=` line before its first `AccessType=` line, with `DataType=0x<type>` lines,
    `AccessType=` lines and lines the parser passes over in any number and order —
    `parse_eds_file` stores, in order, the first 100 entries of the object sections: one for
    each that an `AccessType=` line closes holding a non-zero type, under its own header's
    key. -/
theorem parse_eds_file_sections (preamble : List (BodyLine × LineEnd)) (ss : List EdsSection) :
    (parse_eds_file ObjectDict.empty (some (edsFile preamble ss))).2.entries =
      (ss.filterMap EdsSection.entry).take 100 := by
  have hfit : ∀ l ∈ bodyLines preamble ++ ss.flatMap EdsSection.lines,
      Plain l.1 ∧ l.1.length ≤ 254 := by
    intro l hl
    rcases List.mem_append.mp hl with hl | hl
    · exact bodyLines_fit preamble l hl
    · obtain ⟨s, -, hl⟩ := List.mem_flatMap.mp hl
      exact s.lines_fit l hl
  have h := parse_eds_lines_endLines (EdsParser.start ObjectDict.empty) [] _ hfit
  have hpre : parse_eds_lines (EdsParser.start ObjectDict.empty)
      ((bodyLines preamble).map (·.1 ++ ['\n'])) = EdsParser.start ObjectDict.empty := by
    rw [bodyLines_read]
    exact parse_eds_lines_closed rfl _
  rw [List.append_nil] at h
  rw [parse_eds_file, edsFile, h]
  simp only [fgets_lines, if_true, parse_eds_lines_nil, List.map_append, parse_eds_lines_append,
    hpre, parse_eds_lines_sections]
  rfl

example : (parse_eds_file ObjectDict.empty
    (some "[1000]\r\nDataType=0x0007\r\nAccessType=ro\r\n".toList)).2.entries =
      [⟨0x1000, 0, 4⟩] := by
  decide

/-- The control word's section stores an entry although it declares type 0, and a section
    whose last `DataType=` line declares 0 stores none although an earlier line declared 7.
    Sections under `[M1SubExt6000]` and `[1600subA]`, where `sscanf` fails, store entries under
    the index, or the subindex, of the section before. -/
theorem control_word_and_stale_key_sections :
    (parse_eds_file ObjectDict.empty (some ("[6040]\nDataType=0x0000\nAccessType=rw\n" ++
        "[6041]\nDataType=0x0007\nDataType=0x0000\nAccessType=ro\n").toList)).2.entries =
      [⟨0x6040, 0, 2⟩] ∧
    (parse_eds_file ObjectDict.empty (some ("[6041]\nDataType=0x0007\nAccessType=ro\n" ++
        "[M1SubExt6000]\nDataType=0x0007\nAccessType=ro\n" ++
        "[1018sub1]\nDataType=0x0007\nAccessType=ro\n" ++
        "[1600subA]\nDataType=0x0007\nAccessType=rw\n").toList)).2.entries =
      [⟨0x6041, 0, 4⟩, ⟨0x6041, 0, 4⟩, ⟨0x1018, 1, 4⟩, ⟨0x1600, 1, 4⟩] := by
  decide

end ErobCanopen
