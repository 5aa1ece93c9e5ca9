/-
  ErobCanopen.Dictionary.Lines
  ────────────────────────────
  **THE LINES OF AN EDS TEXT, AND WHAT EACH DOES TO THE PARSER.**

  `parse_eds_file` reads lines with `fgets` and numbers with `sscanf`.  This module gives the
  numerals an EDS text writes (`Numeral`) with what `sscanf` reads of them, how `fgets` hands
  back lines ended by `\n` or `\r\n` (`LineEnd`), and the kinds of line an object section is
  made of: its header `[<index>]` or `[<index>sub<subindex>]` (`ObjectHeader`), and inside it
  `DataType=0x<type>`, `AccessType=<access>` and the lines the parser passes over
  (`BodyLine`) — each with what it does to the parser from any state.

  Main results:
    * `scanNumber_numeral` — `sscanf` reads a numeral back and stops where it ends;
    * `parse_eds_lines_endLines` — lines that fit the buffer are read one at a time, each as if
      it ended with `\n`, whether it ends with `\n` or `\r\n`;
    * `ObjectHeader.parse_eds_line_header` — a header opens its section with its own key,
      whatever key was current;
    * `BodyLine.parse_eds_line_dataType`, `_accessType` — inside a section a `DataType=` line
      sets the type and an `AccessType=` line closes it, storing when the type is non-zero and
      there is room; outside a section neither does anything.
-/
import ErobCanopen.Dictionary.Eds

namespace ErobCanopen

/-! ## §1. Numerals. -/

/-- The characters `isdigit` accepts, and for base 16 those `isxdigit` accepts. -/
def digitChars (base : Nat) : List Char :=
  if base = 16 then "0123456789abcdefABCDEF".toList else "0123456789".toList

/-- A digit character is read as a digit, and it is no white space, sign, hex prefix, line
    end, NUL, closing bracket or `s`. -/
theorem digitChars_facts {base : Nat} (hb : base = 10 ∨ base = 16) :
    ∀ c ∈ digitChars base, (digitVal base c).isSome ∧ isSpace c = false ∧ c ≠ '-' ∧
      c ≠ '+' ∧ c ≠ 'x' ∧ c ≠ 'X' ∧ c ≠ 's' ∧ c ≠ ']' ∧ c ≠ '\n' ∧ c ≠ '\r' ∧
      c ≠ '\x00' := by
  rcases hb with rfl | rfl <;> decide

/-- A number as an EDS text spells it: one or more digits of `base`, in either case, leading
    zeros allowed (`6040`, `607A`, `0x0007`'s `0007`). -/
structure Numeral (base : Nat) where
  text : List Char
  ne_nil : text ≠ []
  digits : ∀ c ∈ text, c ∈ digitChars base

/-- The number the digits denote. -/
def Numeral.value {base : Nat} (n : Numeral base) : Nat :=
  digitsValue base (n.text.filterMap (digitVal base))

/-- What `%hx` (`w = 16`) or `%hhu` (`w = 8`) stores for the numeral. -/
def Numeral.stored {base : Nat} (w : Nat) (n : Numeral base) : BitVec w :=
  BitVec.ofNat w (strtoul false n.value)

/-- What may follow a number without being read as part of it. -/
def Stops (base : Nat) (rest : List Char) : Prop :=
  ∀ c ∈ rest.head?, digitVal base c = none ∧ c ≠ 'x' ∧ c ≠ 'X'

theorem stops_nil (base : Nat) : Stops base [] := fun _ h => nomatch h

theorem stops_cons {base : Nat} {c : Char} (rest : List Char)
    (h : digitVal base c = none ∧ c ≠ 'x' ∧ c ≠ 'X') : Stops base (c :: rest) := by
  intro c' hc
  obtain rfl : c = c' := Option.some_inj.mp hc
  exact h

theorem spanDigits_append {base : Nat} (hb : base = 10 ∨ base = 16) {rest : List Char}
    (hr : ∀ c ∈ rest.head?, digitVal base c = none) :
    ∀ text : List Char, (∀ c ∈ text, c ∈ digitChars base) →
      spanDigits base (text ++ rest) = (text.filterMap (digitVal base), rest)
  | [], _ => by
    cases rest with
    | nil => rfl
    | cons c cs => simp [spanDigits, hr c rfl]
  | c :: text, h => by
    obtain ⟨d, hd⟩ := Option.isSome_iff_exists.mp
      (digitChars_facts hb c (h c (List.mem_cons_self c text))).1
    simp only [List.cons_append, spanDigits, hd, List.filterMap_cons, List.append_eq,
      spanDigits_append hb hr text (fun c' h' => h c' (List.mem_cons_of_mem c h'))]

theorem scanSign_of_ne {c : Char} {t : List Char} (hm : c ≠ '-') (hp : c ≠ '+') :
    scanSign (c :: t) = (false, c :: t) := by
  unfold scanSign
  split <;> simp_all

/-- The magnitude is the digit run whenever there is one and no `0x` prefix opens it. -/
theorem scanMagnitude_of_spanDigits {base : Nat} {s rest : List Char} {ds : List Nat}
    (hs : spanDigits base s = (ds, rest)) (hne : ds ≠ [])
    (hx : ∀ c r, s = '0' :: c :: r → c ≠ 'x' ∧ c ≠ 'X') :
    scanMagnitude base s = some (digitsValue base ds, rest) := by
  unfold scanMagnitude
  split
  · rename_i c r
    obtain ⟨h1, h2⟩ := hx c r rfl
    rw [if_neg (by tauto), hs]
  · rw [hs]
    cases ds with
    | nil => exact absurd rfl hne
    | cons d ds => rfl

/-- `sscanf` reads a numeral back, and stops where it ends. -/
theorem scanNumber_numeral {base : Nat} (hb : base = 10 ∨ base = 16) (n : Numeral base)
    {rest : List Char} (hr : Stops base rest) :
    scanNumber base (n.text ++ rest) = some (false, n.value, rest) := by
  obtain ⟨c, t, ht⟩ := List.exists_cons_of_ne_nil n.ne_nil
  have hdig : ∀ c' ∈ n.text, _ := fun c' h' => digitChars_facts hb c' (n.digits c' h')
  obtain ⟨hc, hs, hm, hp, -⟩ := hdig c (ht ▸ List.mem_cons_self c t)
  have hspan := spanDigits_append hb (fun c hc => (hr c hc).1) n.text n.digits
  have hne : n.text.filterMap (digitVal base) ≠ [] := by
    obtain ⟨d, hd⟩ := Option.isSome_iff_exists.mp hc
    simp only [ht, List.filterMap_cons, hd]
    exact List.cons_ne_nil _ _
  have hx : ∀ c' r, n.text ++ rest = '0' :: c' :: r → c' ≠ 'x' ∧ c' ≠ 'X' := by
    intro c' r h
    rw [ht, List.cons_append, List.cons.injEq] at h
    cases t with
    | nil =>
      rw [List.nil_append] at h
      obtain ⟨_, hx, hX⟩ := hr c' (by rw [h.2]; rfl)
      exact ⟨hx, hX⟩
    | cons c2 t =>
      have hc' : c' ∈ n.text := by
        rw [ht, ← (List.cons.inj h.2).1]
        exact List.mem_cons_of_mem c (List.mem_cons_self c2 t)
      obtain ⟨-, -, -, -, hx, hX, -⟩ := hdig c' hc'
      exact ⟨hx, hX⟩
  have key : scanMagnitude base (n.text ++ rest) = some (n.value, rest) :=
    scanMagnitude_of_spanDigits hspan hne hx
  rw [ht, List.cons_append] at key ⊢
  simp only [scanNumber, List.dropWhile_cons, hs, Bool.false_eq_true, if_false,
    scanSign_of_ne hm hp, key, Option.map_some']

theorem scan_hx_numeral (n : Numeral 16) {rest : List Char} (hr : Stops 16 rest) :
    scan_hx (n.text ++ rest) = some (n.stored 16, rest) := by
  simp only [scan_hx, scanNumber_numeral (.inr rfl) n hr, Option.map_some', Numeral.stored]

theorem scan_hhu_numeral (n : Numeral 10) : scan_hhu n.text = some (n.stored 8, []) := by
  have h := scanNumber_numeral (.inl rfl) n (stops_nil 10)
  rw [List.append_nil] at h
  simp only [scan_hhu, h, Option.map_some', Numeral.stored]

/-! ## §2. Lines. -/

/-- A line with no line end and no NUL in it. -/
def Plain (line : List Char) : Prop := ∀ c ∈ line, c ≠ '\n' ∧ c ≠ '\r' ∧ c ≠ '\x00'

instance (line : List Char) : Decidable (Plain line) :=
  inferInstanceAs (Decidable (∀ c ∈ line, _))

/-- How a line of the text ends: `\n`, or `\r\n` as in a file written on Windows. -/
inductive LineEnd where
  | lf
  | crlf
  deriving DecidableEq, Repr

def LineEnd.text : LineEnd → List Char
  | lf => ['\n']
  | crlf => ['\r', '\n']

/-- Lines, each followed by its own end. -/
def endLines (ls : List (List Char × LineEnd)) : List Char :=
  ls.flatMap fun l => l.1 ++ l.2.text

/-- Cutting a plain line at its line end gives the line, whatever follows the `\r` or `\n`. -/
theorem cut_plain {line : List Char} (h : Plain line) {c : Char} (hc : c = '\r' ∨ c = '\n')
    (rest : List Char) : cut ['\r', '\n'] (line ++ c :: rest) = line := by
  unfold cut
  rw [List.takeWhile_append_of_pos]
  · rcases hc with rfl | rfl <;> simp
  · intro c hc
    obtain ⟨h1, h2, h3⟩ := h c hc
    simp [h1, h2, h3]

/-- The loop reads a line only through what precedes its first `\r` or `\n`. -/
theorem parse_eds_line_end (p : EdsParser) {line : List Char} (h : Plain line) {c : Char}
    (hc : c = '\r' ∨ c = '\n') (rest : List Char) :
    parse_eds_line p (line ++ c :: rest) = parse_eds_line p (line ++ ['\n']) := by
  simp only [parse_eds_line, cut_plain h hc rest, cut_plain h (.inr rfl) []]

/-- An empty line does nothing. -/
theorem parse_eds_line_newline (p : EdsParser) : parse_eds_line p ['\n'] = p := by
  simp [parse_eds_line, cut, headerId, strstr]

theorem strstr_of_isPrefixOf {hay needle : List Char} (h : needle.isPrefixOf hay) :
    strstr hay needle = true := by
  cases hay with
  | nil => cases needle <;> simp_all [strstr, List.isPrefixOf]
  | cons c cs => simp [strstr, h]

theorem strstr_append_of_isPrefixOf {hay needle : List Char} (h : needle.isPrefixOf hay) :
    ∀ pre : List Char, strstr (pre ++ hay) needle = true
  | [] => strstr_of_isPrefixOf h
  | c :: pre => by simp [strstr, strstr_append_of_isPrefixOf h pre]

/-- A needle whose first character a prefix lacks is found after the prefix or not at all. -/
theorem strstr_append_of_not_mem {c : Char} {needle : List Char} :
    ∀ {pre : List Char} (hay : List Char), c ∉ pre →
      strstr (pre ++ hay) (c :: needle) = strstr hay (c :: needle)
  | [], _, _ => rfl
  | d :: pre, hay, h => by
    rw [List.mem_cons, not_or] at h
    simp [strstr, List.isPrefixOf, h.1, strstr_append_of_not_mem hay h.2]

theorem strstr_of_not_mem {c : Char} {needle : List Char} {hay : List Char} (h : c ∉ hay) :
    strstr hay (c :: needle) = false := by
  simpa using strstr_append_of_not_mem [] h

theorem scanLit_append (lit rest : List Char) : scanLit lit (lit ++ rest) = some rest := by
  simp [scanLit]

/-- Characters other than `\n` go into the buffer while it has room. -/
theorem fgets_lines_fill (size : Nat) : ∀ (cur line rest : List Char), '\n' ∉ line →
    cur.length + line.length + 1 < size →
    fgets_lines size cur (line ++ rest) = fgets_lines size (line.reverse ++ cur) rest
  | cur, [], rest, _, _ => rfl
  | cur, c :: line, rest, hl, hlen => by
    rw [List.mem_cons, not_or] at hl
    rw [List.length_cons] at hlen
    rw [List.cons_append, fgets_lines, if_neg (not_or.mpr ⟨Ne.symm hl.1, by omega⟩),
      fgets_lines_fill size (c :: cur) line rest hl.2 (by rw [List.length_cons]; omega)]
    simp

/-- A line that fits the buffer comes back from `fgets` whole. -/
theorem fgets_lines_line (size : Nat) (cur line rest : List Char) (hl : '\n' ∉ line)
    (hlen : cur.length + line.length + 2 ≤ size) :
    fgets_lines size cur (line ++ '\n' :: rest) =
      (cur.reverse ++ line ++ ['\n']) :: fgets_lines size [] rest := by
  rw [fgets_lines_fill size cur line _ hl (by omega), fgets_lines, if_pos (.inl rfl)]
  simp

/-- A line too long for the buffer comes back cut where the buffer fills. -/
theorem fgets_lines_full (size : Nat) (line rest : List Char) (c : Char) (hl : '\n' ∉ line)
    (hlen : line.length + 2 = size) :
    fgets_lines size [] (line ++ c :: rest) = (line ++ [c]) :: fgets_lines size [] rest := by
  rw [fgets_lines_fill size [] line _ hl (by simp; omega), fgets_lines,
    if_pos (.inr (by simpa using hlen))]
  simp

/-- A plain line of at most 254 characters is read as if it ended with `\n`, whichever end it
    has: a `\r\n` end is cut with the `\r`, and where the `\r` fills the buffer (a line of 254
    characters) the `\n` comes back alone, as an empty line that does nothing. -/
theorem parse_eds_lines_fgets_line (p : EdsParser) {line : List Char} (h : Plain line)
    (hlen : line.length ≤ 254) (e : LineEnd) (rest : List Char) :
    parse_eds_lines p (fgets_lines 256 [] (line ++ e.text ++ rest)) =
      parse_eds_lines (parse_eds_line p (line ++ ['\n'])) (fgets_lines 256 [] rest) := by
  have hn : '\n' ∉ line := fun hn => (h _ hn).1 rfl
  cases e with
  | lf =>
    rw [LineEnd.text, List.append_assoc, List.singleton_append,
      fgets_lines_line 256 [] line rest hn (by simp; omega)]
    rfl
  | crlf =>
    rw [LineEnd.text, List.append_assoc, List.cons_append, List.singleton_append]
    rcases Nat.lt_or_ge line.length 254 with hlt | hfull
    · have hcr : '\n' ∉ line ++ ['\r'] := by simp [hn]
      rw [← List.singleton_append, ← List.append_assoc,
        fgets_lines_line 256 [] (line ++ ['\r']) rest hcr (by simp; omega), parse_eds_lines_cons,
        List.reverse_nil, List.nil_append, List.append_assoc, List.singleton_append,
        parse_eds_line_end p h (.inl rfl) ['\n']]
    · rw [fgets_lines_full 256 line _ '\r' hn (by omega), parse_eds_lines_cons,
        parse_eds_line_end p h (.inl rfl) [], fgets_lines, if_pos (.inl rfl),
        parse_eds_lines_cons]
      simp [parse_eds_line_newline]

/-- Lines of at most 254 characters, each ended by `\n` or `\r\n`, are read one at a time,
    each as if it ended with `\n`. -/
theorem parse_eds_lines_endLines (p : EdsParser) (rest : List Char) :
    ∀ ls : List (List Char × LineEnd), (∀ l ∈ ls, Plain l.1 ∧ l.1.length ≤ 254) →
      parse_eds_lines p (fgets_lines 256 [] (endLines ls ++ rest)) =
        parse_eds_lines (parse_eds_lines p (ls.map (·.1 ++ ['\n']))) (fgets_lines 256 [] rest)
  | [], _ => rfl
  | l :: ls, h => by
    have hl := h l (List.mem_cons_self l ls)
    rw [endLines, List.flatMap_cons, List.append_assoc, parse_eds_lines_fgets_line p hl.1 hl.2,
      ← endLines, parse_eds_lines_endLines _ rest ls (fun l' h' => h l' (List.mem_cons_of_mem l h'))]
    rfl

/-- A line end splits `fgets`'s buffers: what follows it is read from an empty buffer. -/
theorem fgets_lines_split (size : Nat) (rest : List Char) : ∀ (cur xs : List Char),
    fgets_lines size cur (xs ++ '\n' :: rest) =
      fgets_lines size cur (xs ++ ['\n']) ++ fgets_lines size [] rest
  | cur, [] => by simp [fgets_lines]
  | cur, c :: xs => by
    rw [List.cons_append, List.cons_append, fgets_lines, fgets_lines]
    split
    · rw [fgets_lines_split size rest [] xs, List.cons_append]
    · exact fgets_lines_split size rest (c :: cur) xs

theorem fgets_lines_append (size : Nat) {pre : List Char} (hpre : ∀ c ∈ pre.getLast?, c = '\n')
    (rest : List Char) :
    fgets_lines size [] (pre ++ rest) = fgets_lines size [] pre ++ fgets_lines size [] rest := by
  rcases List.eq_nil_or_concat pre with rfl | ⟨xs, c, rfl⟩
  · simp [fgets_lines]
  · obtain rfl : c = '\n' := hpre c (by simp)
    rw [List.concat_eq_append, List.append_assoc, List.singleton_append, fgets_lines_split]


/-! ## §3. The lines of an object section. -/

/-- A line the parser passes over wherever it stands: it fits the buffer, is no section
    header, and names neither `DataType=` nor `AccessType=` (`ParameterName=...`,
    `ObjectType=0x7`, `DefaultValue=0`, ...). -/
def Inert (line : List Char) : Prop :=
  Plain line ∧ line.length ≤ 254 ∧ headerId line = none ∧
    strstr line "DataType=".toList = false ∧ strstr line "AccessType=".toList = false

instance (line : List Char) : Decidable (Inert line) := inferInstanceAs (Decidable (_ ∧ _))


theorem parse_eds_lines_append (p : EdsParser) (bs bs' : List (List Char)) :
    parse_eds_lines p (bs ++ bs') = parse_eds_lines (parse_eds_lines p bs) bs' :=
  List.foldl_append _ _ _ _

theorem parse_eds_line_inert {line : List Char} (h : Inert line) (p : EdsParser) :
    parse_eds_line p (line ++ ['\n']) = p := by
  obtain ⟨hp, -, hh, hd, ha⟩ := h
  simp only [parse_eds_line, cut_plain hp (.inr rfl) [], hh, hd, ha, Bool.false_eq_true, and_false, if_false]

theorem parse_eds_lines_inert {ls : List (List Char × LineEnd)} (h : ∀ l ∈ ls, Inert l.1)
    (p : EdsParser) : parse_eds_lines p (ls.map (·.1 ++ ['\n'])) = p := by
  induction ls with
  | nil => rfl
  | cons l ls ih =>
    rw [List.map_cons, parse_eds_lines_cons, parse_eds_line_inert (h l (List.mem_cons_self l ls)),
      ih (fun l' h' => h l' (List.mem_cons_of_mem l h'))]

/-- The header of an object section: `[<index>]` or `[<index>sub<subindex>]`, a hex index and
    a decimal subindex, fitting the 256-byte buffer. -/
structure ObjectHeader where
  index_text : Numeral 16
  subindex_text : Option (Numeral 10)
  fits : index_text.text.length + subindex_text.elim 0 (fun s => s.text.length + 3) ≤ 252

namespace ObjectHeader

/-- The object id between the brackets. -/
def objectId (h : ObjectHeader) : List Char :=
  h.index_text.text ++ h.subindex_text.elim [] fun s => "sub".toList ++ s.text

def line (h : ObjectHeader) : List Char := '[' :: (h.objectId ++ [']'])

/-- The key of the section, as `sscanf` stores it. -/
def index (h : ObjectHeader) : BitVec 16 := h.index_text.stored 16

def subindex (h : ObjectHeader) : BitVec 8 := h.subindex_text.elim 0 (Numeral.stored 8)

theorem objectId_chars (h : ObjectHeader) :
    ∀ c ∈ h.objectId, c ≠ ']' ∧ c ≠ '\n' ∧ c ≠ '\r' ∧ c ≠ '\x00' := by
  have hsub : ∀ c ∈ "sub".toList, c ≠ ']' ∧ c ≠ '\n' ∧ c ≠ '\r' ∧ c ≠ '\x00' := by
    decide
  have hdig : ∀ {base} (n : Numeral base), (base = 10 ∨ base = 16) →
      ∀ c ∈ n.text, c ≠ ']' ∧ c ≠ '\n' ∧ c ≠ '\r' ∧ c ≠ '\x00' := fun n hb c hc =>
    (digitChars_facts hb c (n.digits c hc)).2.2.2.2.2.2.2
  intro c hc
  rcases List.mem_append.mp hc with hc | hc
  · exact hdig _ (.inr rfl) c hc
  · cases hs : h.subindex_text with
    | none => simp [hs] at hc
    | some s =>
      rw [hs, Option.elim, List.mem_append] at hc
      exact hc.elim (hsub c) (hdig s (.inl rfl) c)

theorem line_plain (h : ObjectHeader) : Plain h.line := by
  intro c hc
  rcases List.mem_cons.mp hc with rfl | hc
  · decide
  rcases List.mem_append.mp hc with hc | hc
  · exact (h.objectId_chars c hc).2
  · obtain rfl := List.mem_singleton.mp hc
    decide

theorem line_fits (h : ObjectHeader) : h.line.length ≤ 254 := by
  have hid : h.objectId.length ≤ 252 := by
    have := h.fits
    cases hs : h.subindex_text <;> simp_all [objectId]
  simp only [line, List.length_cons, List.length_append, List.length_nil]
  omega

theorem headerId_line (h : ObjectHeader) : headerId h.line = some h.objectId := by
  have hc : ∀ c ∈ h.objectId, (c != ']') = true := fun c hc => by
    simp [(h.objectId_chars c hc).1]
  simp [line, headerId, List.takeWhile_append_of_pos hc]

/-- The object id gives the section's key, whatever key was current. -/
theorem headerKey_objectId (h : ObjectHeader) (i : BitVec 16) (s : BitVec 8) :
    headerKey i s h.objectId = (h.index, h.subindex) := by
  unfold headerKey objectId
  cases hs : h.subindex_text with
  | none =>
    have hsub : 's' ∉ h.index_text.text := fun hc =>
      (digitChars_facts (.inr rfl) _ (h.index_text.digits _ hc)).2.2.2.2.2.2.1 rfl
    have hns : strstr h.index_text.text "sub".toList = false := strstr_of_not_mem hsub
    have hx := scan_hx_numeral h.index_text (stops_nil 16)
    rw [List.append_nil] at hx
    simp only [Option.elim, List.append_nil, hns, Bool.false_eq_true, if_false, hx, subindex,
      index, hs]
  | some sub =>
    have hsub : strstr (h.index_text.text ++ ("sub".toList ++ sub.text)) "sub".toList = true :=
      strstr_append_of_isPrefixOf (List.isPrefixOf_iff_prefix.mpr (List.prefix_append _ _)) _
    have hstop : Stops 16 ("sub".toList ++ sub.text) :=
      stops_cons ("ub".toList ++ sub.text) (by decide)
    have hx := scan_hx_numeral h.index_text hstop
    simp only [Option.elim, hsub, if_true, hx, scanLit_append, Option.some_bind,
      scan_hhu_numeral, subindex, index, hs]

/-- The header opens the section, with its own key, whatever state the parser is in. -/
theorem parse_eds_line_header (p : EdsParser) (h : ObjectHeader) :
    parse_eds_line p (h.line ++ ['\n']) =
      { p with current_index := h.index, current_subindex := h.subindex,
               current_data_type := 0, in_object := true } := by
  simp only [parse_eds_line, cut_plain h.line_plain (.inr rfl) [], headerId_line, headerKey_objectId]

end ObjectHeader

/-- A line inside a section: `DataType=0x<type>`, `AccessType=<access>` for any `access` that
    does not name `DataType=`, or a line the parser passes over; each fits the 256-byte
    buffer. -/
inductive BodyLine where
  | dataType (type_text : Numeral 16) (fits : type_text.text.length ≤ 243)
  | accessType (access : List Char) (plain : Plain access)
      (untyped : strstr access "DataType=".toList = false) (fits : access.length ≤ 243)
  | inert (line : List Char) (h : Inert line)

namespace BodyLine

def text : BodyLine → List Char
  | dataType type_text _ => "DataType=0x".toList ++ type_text.text
  | accessType access _ _ _ => "AccessType=".toList ++ access
  | inert line _ => line

theorem text_plain : ∀ l : BodyLine, Plain l.text
  | dataType type_text _ => by
    have hlit : Plain "DataType=0x".toList := by decide
    intro c hc
    rcases List.mem_append.mp hc with hc | hc
    · exact hlit c hc
    · exact (digitChars_facts (.inr rfl) c (type_text.digits c hc)).2.2.2.2.2.2.2.2
  | accessType access plain _ _ => by
    have hlit : Plain "AccessType=".toList := by decide
    intro c hc
    rcases List.mem_append.mp hc with hc | hc
    · exact hlit c hc
    · exact plain c hc
  | inert _ h => h.1

theorem text_fits : ∀ l : BodyLine, l.text.length ≤ 254
  | dataType _ fits => by
    have : "DataType=0x".toList.length = 11 := rfl
    simp only [text, List.length_append]
    omega
  | accessType _ _ _ fits => by
    have : "AccessType=".toList.length = 11 := rfl
    simp only [text, List.length_append]
    omega
  | inert _ h => h.2.1

theorem headerId_text : ∀ l : BodyLine, headerId l.text = none
  | dataType .. => rfl
  | accessType .. => rfl
  | inert _ h => h.2.2.1

/-- `DataType=0x<type>`: inside a section it sets the data type, to UNSIGNED16 for the control
    word; outside a section it does nothing. -/
theorem parse_eds_line_dataType (p : EdsParser) (type_text : Numeral 16)
    (fits : type_text.text.length ≤ 243) :
    parse_eds_line p ((dataType type_text fits).text ++ ['\n']) =
      if p.in_object then
        { p with current_data_type :=
            if p.current_index = 0x6040 then 6 else type_text.stored 16 }
      else p := by
  have hdt : strstr (dataType type_text fits).text "DataType=".toList = true := by
    have hlit : "DataType=0x".toList = "DataType=".toList ++ "0x".toList := rfl
    refine strstr_of_isPrefixOf (List.isPrefixOf_iff_prefix.mpr ?_)
    rw [text, hlit, List.append_assoc]
    exact List.prefix_append _ _
  have hlit : scanLit "DataType=0x".toList (dataType type_text fits).text =
      some type_text.text :=
    scanLit_append _ _
  have hx := scan_hx_numeral type_text (stops_nil 16)
  rw [List.append_nil] at hx
  cases hp : p.in_object
  · simp only [parse_eds_line, cut_plain (text_plain _) (.inr rfl) [], headerId_text, hp,
      Bool.false_eq_true, false_and, if_false]
  · simp only [parse_eds_line, cut_plain (text_plain _) (.inr rfl) [], headerId_text, hp, hdt, and_self,
      if_true, scanDataType, hlit, Option.some_bind, hx, Option.elim]

/-- `AccessType=<access>`: inside a section it closes the section, storing its entry when the
    data type is non-zero and fewer than 100 are stored; outside a section it does nothing. -/
theorem parse_eds_line_accessType (p : EdsParser) (access : List Char) (plain : Plain access)
    (untyped : strstr access "DataType=".toList = false) (fits : access.length ≤ 243) :
    parse_eds_line p ((accessType access plain untyped fits).text ++ ['\n']) =
      if p.in_object then
        { p with in_object := false,
                 object_dict :=
                   if h : p.current_data_type ≠ 0 ∧ p.object_dict.entries.length < 100 then
                     p.object_dict.push ⟨p.current_index, p.current_subindex,
                       get_data_type_size p.current_data_type⟩ h.2
                   else p.object_dict }
      else p := by
  have hdt : strstr (accessType access plain untyped fits).text "DataType=".toList = false :=
    (strstr_append_of_not_mem access (by decide)).trans untyped
  have hat : strstr (accessType access plain untyped fits).text "AccessType=".toList = true :=
    strstr_of_isPrefixOf (List.isPrefixOf_iff_prefix.mpr (List.prefix_append _ _))
  cases hp : p.in_object <;>
    simp only [parse_eds_line, cut_plain (text_plain _) (.inr rfl) [], headerId_text, hp, hdt, hat, and_self,
      Bool.false_eq_true, false_and, and_false, if_true, if_false]

end BodyLine

end ErobCanopen
