import WriteGate.Proofs.Json.Tokens

/-!
# Values read back

What is written is read back as the same value, and the layout does not matter
for it (`read?_write`). A layout puts blanks between tokens, and the reading
passes over blanks wherever it looks for a token; so the law is proved for every
layout that puts nothing but blanks there, and the compact and the spread one
are two of them.

The reading is given a number of steps. A value takes at most two of them for
each of its characters, since it spends two on an array, an object or an item
and each of these has a bracket or a comma of its own. The count that the
reading sets itself is therefore enough.
-/

namespace WriteGate.Json

/-! ## Blanks -/

/-- **Blanks**, and nothing else. -/
def Blank (chars : List Char) : Prop := ∀ c ∈ chars, isTokenBlank c = true

theorem skipBlanks_append {blanks : List Char} (h : Blank blanks) (text : List Char) :
    skipBlanks (blanks ++ text) = skipBlanks text :=
  List.dropWhile_append_of_pos h

theorem skipBlanks_cons {c : Char} (h : isTokenBlank c = false) (text : List Char) :
    skipBlanks (c :: text) = c :: text :=
  List.dropWhile_cons_of_neg (by simp [h])

/-- Blanks between values do not delimit worse than what follows them. -/
theorem delimited_append {blanks rest : List Char} (h : Blank blanks) (hrest : Delimited rest) :
    Delimited (blanks ++ rest) := by
  cases blanks with
  | nil => exact hrest
  | cons c blanks =>
    rintro d ⟨⟩
    have hblank := h c List.mem_cons_self
    simp only [isTokenBlank, Bool.or_eq_true, beq_iff_eq] at hblank
    rcases hblank with ((rfl | rfl) | rfl) | rfl <;> rfl

theorem delimited_cons {c : Char} (h : isLiteralChar c = false) (rest : List Char) :
    Delimited (c :: rest) := by
  rintro d ⟨⟩
  exact h

/-- **A layout of blanks.** -/
structure Layout.IsBlank (layout : Layout) : Prop where
  /-- Between tokens stand blanks. -/
  lineBreak (depth : Nat) : Blank (layout.lineBreak depth).toList
  /-- A name and its value are separated by a colon with blanks behind it. -/
  colon : ∃ blanks, layout.colon.toList = ':' :: blanks ∧ Blank blanks

theorem Layout.isBlank_compact : Layout.compact.IsBlank where
  lineBreak _ := List.forall_mem_nil _
  colon := ⟨[], rfl, List.forall_mem_nil _⟩

theorem Layout.isBlank_spread : Layout.spread.IsBlank where
  lineBreak depth := by
    intro c hc
    simp only [Layout.spread, String.toList_append, String.toList_ofList, List.mem_append,
      List.mem_replicate] at hc
    rcases hc with hc | ⟨-, rfl⟩
    · obtain rfl : c = '\n' := by simpa using hc
      rfl
    · rfl
  colon := ⟨[' '], rfl, by simp [Blank, isTokenBlank]⟩

/-! ## Steps of the reading -/

section Steps

variable {steps : Nat} {text rest behind : List Char}

theorem readValue?_append {blanks : List Char} (h : Blank blanks) :
    readValue? steps (blanks ++ text) = readValue? steps text := by
  cases steps with
  | zero => rfl
  | succ steps => rw [readValue?, readValue?, skipBlanks_append h]

example : readValue? 9 " [ \x7b\"a\" : null\x7d] x".toList
    = some (.arr [.obj [("a", .null)]], " x".toList) := by
  cbv

theorem readValue?_string {value : String} (h : readString? steps [] text = some (value, rest)) :
    readValue? (steps + 1) ('"' :: text) = some (.str value, rest) := by
  rw [readValue?, skipBlanks_cons rfl]
  show (readString? steps [] text).map _ = _
  rw [h]
  rfl

theorem readValue?_number {c : Char} (h : isLiteralChar c = true) :
    readValue? (steps + 1) (c :: text) = readNumber? (c :: text) := by
  have hne : ∀ d : Char, isLiteralChar d = false → (c == d) = false := by
    intro d hd
    rw [beq_eq_false_iff_ne]
    rintro rfl
    rw [h] at hd
    cases hd
  have hblank : isTokenBlank c = false := by
    rw [isTokenBlank, hne ' ' rfl, hne '\t' rfl, hne '\n' rfl, hne '\r' rfl]
    rfl
  rw [readValue?, skipBlanks_cons hblank]
  simp only [hne '"' rfl, hne '[' rfl, hne '\x7b' rfl, hne 'n' rfl, hne 't' rfl, hne 'f' rfl,
    Bool.false_eq_true, if_false]

/-- No value begins with a closing bracket. -/
theorem readValue?_closed (h : skipBlanks text = ']' :: behind) :
    readValue? steps text = none := by
  cases steps with
  | zero => rfl
  | succ steps =>
    rw [readValue?, h]
    rfl

/-- A bracket begins an array, of the items behind it if any are read there. -/
theorem readValue?_array {v : Json} (h : readItems? steps [] text = some (v, rest)) :
    readValue? (steps + 1) ('[' :: text) = some (v, rest) := by
  rw [readValue?, skipBlanks_cons rfl]
  dsimp only
  rw [if_neg (by decide), if_pos (beq_self_eq_true _)]
  split
  · next heq =>
    -- no item would be read where the array is closed at once
    cases steps with
    | zero => cases h
    | succ steps =>
      rw [readItems?, readValue?_closed heq] at h
      cases h
  · exact h

/-- A brace begins an object, of the entries behind it if any are read there. -/
theorem readValue?_object {v : Json} (h : readEntries? steps [] text = some (v, rest)) :
    readValue? (steps + 1) ('\x7b' :: text) = some (v, rest) := by
  rw [readValue?, skipBlanks_cons rfl]
  dsimp only
  rw [if_neg (by decide), if_neg (by decide), if_pos (beq_self_eq_true _)]
  split
  · next heq =>
    -- no name would be read where the object is closed at once
    cases steps with
    | zero => cases h
    | succ steps =>
      rw [readEntries?, heq] at h
      cases h
  · exact h

theorem readItems?_comma {read : List Json} {item : Json}
    (hitem : readValue? steps text = some (item, rest)) (hrest : skipBlanks rest = ',' :: behind) :
    readItems? (steps + 1) read text = readItems? steps (item :: read) behind := by
  simp only [readItems?, hitem, hrest]

theorem readItems?_close {read : List Json} {item : Json}
    (hitem : readValue? steps text = some (item, rest)) (hrest : skipBlanks rest = ']' :: behind) :
    readItems? (steps + 1) read text = some (.arr (item :: read).reverse, behind) := by
  simp only [readItems?, hitem, hrest]

theorem readItems?_append {read : List Json} {blanks : List Char} (h : Blank blanks) :
    readItems? steps read (blanks ++ text) = readItems? steps read text := by
  cases steps with
  | zero => rfl
  | succ steps => rw [readItems?, readItems?, readValue?_append h]

/-- **An entry is read**: a name behind its opening mark, a colon, and a value. -/
def ReadsEntry (steps : Nat) (text : List Char) (name : String) (value : Json)
    (rest : List Char) : Prop :=
  ∃ named valued, text = '"' :: named ∧ readString? steps [] named = some (name, ':' :: valued)
    ∧ readValue? steps valued = some (value, rest)

theorem readEntries?_comma {read : List (String × Json)} {name : String} {value : Json}
    (hentry : ReadsEntry steps text name value rest) (hrest : skipBlanks rest = ',' :: behind) :
    readEntries? (steps + 1) read text
      = readEntries? steps (insertEntry read name value) behind := by
  obtain ⟨named, valued, rfl, hname, hvalue⟩ := hentry
  have hquote : skipBlanks ('"' :: named) = '"' :: named := skipBlanks_cons rfl named
  have hcolon : skipBlanks (':' :: valued) = ':' :: valued := skipBlanks_cons rfl valued
  simp only [readEntries?, hquote, hname, hcolon, hvalue, hrest]

theorem readEntries?_close {read : List (String × Json)} {name : String} {value : Json}
    (hentry : ReadsEntry steps text name value rest)
    (hrest : skipBlanks rest = '\x7d' :: behind) :
    readEntries? (steps + 1) read text = some (.obj (insertEntry read name value), behind) := by
  obtain ⟨named, valued, rfl, hname, hvalue⟩ := hentry
  have hquote : skipBlanks ('"' :: named) = '"' :: named := skipBlanks_cons rfl named
  have hcolon : skipBlanks (':' :: valued) = ':' :: valued := skipBlanks_cons rfl valued
  simp only [readEntries?, hquote, hname, hcolon, hvalue, hrest]

theorem readEntries?_append {read : List (String × Json)} {blanks : List Char}
    (h : Blank blanks) :
    readEntries? steps read (blanks ++ text) = readEntries? steps read text := by
  cases steps with
  | zero => rfl
  | succ steps => rw [readEntries?, readEntries?, skipBlanks_append h]

end Steps

/-! ## Values that texts hold -/

/-- **A value that a text can hold as it is**: its numbers are integers, and no object
repeats a name. -/
inductive Plain : Json → Prop
  | null : Plain null
  | bool (value : Bool) : Plain (bool value)
  | int (value : Int) : Plain (int value)
  | str (value : String) : Plain (str value)
  | arr {items : List Json} (hitems : ∀ item ∈ items, Plain item) : Plain (arr items)
  | obj {entries : List (String × Json)} (hnames : (entries.map Prod.fst).Nodup)
      (hvalues : ∀ entry ∈ entries, Plain entry.2) : Plain (obj entries)

/-- A new name is entered behind the others. -/
theorem insertEntry_of_not_mem {entries : List (String × Json)} {name : String}
    (h : name ∉ entries.map Prod.fst) (value : Json) :
    insertEntry entries name value = entries ++ [(name, value)] := by
  induction entries with
  | nil => rfl
  | cons entry entries ih =>
    rw [List.map_cons, List.mem_cons, not_or] at h
    rw [insertEntry, if_neg (by simpa using fun heq => h.1 heq.symm), ih h.2, List.cons_append]

/-! ## The text of a value -/

section Text

variable {layout : Layout} {depth : Nat}

theorem toList_separated_cons (separator part next : String) (parts : List String) :
    (separated separator (part :: next :: parts)).toList
      = part.toList ++ (separator.toList ++ (separated separator (next :: parts)).toList) := by
  rw [separated, String.toList_append, String.toList_append, List.append_assoc]
  exact List.cons_ne_nil next parts

/-- The separator of a layout is a comma and blanks. -/
theorem toList_comma_lineBreak (layout : Layout) (depth : Nat) :
    ("," ++ layout.lineBreak depth).toList = ',' :: (layout.lineBreak depth).toList := by
  rw [String.toList_append]
  rfl

theorem toList_bracketed (layout : Layout) (depth : Nat) {parts : List String} (h : parts ≠ []) :
    (bracketed layout depth parts).toList =
      (layout.lineBreak (depth + 1)).toList
        ++ ((separated ("," ++ layout.lineBreak (depth + 1)) parts).toList
          ++ (layout.lineBreak depth).toList) := by
  cases parts with
  | nil => exact absurd rfl h
  | cons part parts =>
    show (_ ++ _ ++ _ : String).toList = _
    rw [String.toList_append, String.toList_append, List.append_assoc]

theorem toList_write_arr (items : List Json) :
    (write layout depth (arr items)).toList
      = '[' :: ((bracketed layout depth (writeItems layout (depth + 1) items)).toList
        ++ [']']) := by
  rw [write, String.toList_append, String.toList_append]
  rfl

theorem toList_write_obj (entries : List (String × Json)) :
    (write layout depth (obj entries)).toList
      = '\x7b' :: ((bracketed layout depth (writeEntries layout (depth + 1) entries)).toList
        ++ ['\x7d']) := by
  rw [write, String.toList_append, String.toList_append]
  rfl

/-- An entry in writing is read as the entry, if its value is. -/
theorem readsEntry_write (hlayout : layout.IsBlank) {name : String} {value : Json}
    {steps : Nat} {rest : List Char}
    (hvalue : readValue? steps ((value.write layout depth).toList ++ rest) = some (value, rest))
    (hsteps : (quoted name).toList.length ≤ steps + 1) :
    ReadsEntry steps ((quoted name ++ layout.colon ++ value.write layout depth).toList ++ rest)
      name value rest := by
  obtain ⟨blanks, hcolon, hblanks⟩ := hlayout.colon
  refine ⟨name.toList.flatMap escapeChar
    ++ '"' :: ':' :: (blanks ++ ((value.write layout depth).toList ++ rest)),
    blanks ++ ((value.write layout depth).toList ++ rest), ?_, ?_, ?_⟩
  · rw [String.toList_append, String.toList_append, toList_quoted, hcolon]
    simp only [List.cons_append, List.append_assoc, List.nil_append]
  · exact readString?_quoted _ hsteps
  · rw [readValue?_append hblanks, hvalue]

end Text

/-! ## Reading the text of a value -/

/-- **A value reads back** from its text in a layout, with anything behind it that delimits
it, in two steps for each character. -/
def ReadsBack (layout : Layout) (v : Json) : Prop :=
  ∀ (depth steps : Nat) (rest : List Char), Delimited rest →
    2 * (v.write layout depth).toList.length ≤ steps →
    readValue? steps ((v.write layout depth).toList ++ rest) = some (v, rest)

section Parts

variable {layout : Layout} {depth steps : Nat} {blanks rest : List Char}

/-- **The items of an array read back**, if each of them does, behind whatever items were
read before. -/
theorem readItems?_separated (hlayout : layout.IsBlank) (hblanks : Blank blanks)
    {items : List Json} (hne : items ≠ []) (hitems : ∀ item ∈ items, ReadsBack layout item)
    (read : List Json)
    (hsteps : 2 * (separated ("," ++ layout.lineBreak depth)
      (writeItems layout depth items)).toList.length < steps) :
    readItems? steps read ((separated ("," ++ layout.lineBreak depth)
        (writeItems layout depth items)).toList ++ (blanks ++ ']' :: rest))
      = some (.arr (read.reverse ++ items), rest) := by
  induction items generalizing steps read with
  | nil => exact absurd rfl hne
  | cons item items ih =>
    obtain ⟨hitem, hbehind⟩ := List.forall_mem_cons.1 hitems
    obtain ⟨steps, rfl⟩ := Nat.exists_eq_succ_of_ne_zero (Nat.ne_zero_of_lt hsteps)
    cases items with
    | nil =>
      rw [writeItems, writeItems, separated] at hsteps ⊢
      have hread := hitem depth steps (blanks ++ ']' :: rest)
        (delimited_append hblanks (delimited_cons rfl rest)) (by omega)
      have hclose : skipBlanks (blanks ++ ']' :: rest) = ']' :: rest := by
        rw [skipBlanks_append hblanks, skipBlanks_cons rfl]
      rw [readItems?_close hread hclose, List.reverse_cons]
    | cons next items =>
      -- the other items stand behind a comma and blanks
      rw [writeItems, writeItems, toList_separated_cons, ← writeItems,
        toList_comma_lineBreak] at hsteps ⊢
      rw [List.length_append, List.length_append, List.length_cons] at hsteps
      simp only [List.append_assoc, List.cons_append]
      have hread := hitem depth steps (',' :: ((layout.lineBreak depth).toList
        ++ ((separated ("," ++ layout.lineBreak depth)
          (writeItems layout depth (next :: items))).toList ++ (blanks ++ ']' :: rest))))
        (delimited_cons rfl _) (by omega)
      rw [readItems?_comma hread (skipBlanks_cons rfl _),
        readItems?_append (hlayout.lineBreak depth),
        ih (List.cons_ne_nil next items) hbehind (item :: read) (by omega), List.reverse_cons,
        List.append_assoc]
      rfl

/-- An entry reads back, if its value does. -/
theorem ReadsBack.readsEntry {value : Json} (h : ReadsBack layout value)
    (hlayout : layout.IsBlank) (name : String) (depth : Nat) (hrest : Delimited rest)
    (hsteps : 2 * (quoted name ++ layout.colon ++ value.write layout depth).toList.length
      ≤ steps) :
    ReadsEntry steps ((quoted name ++ layout.colon ++ value.write layout depth).toList ++ rest)
      name value rest := by
  rw [String.toList_append, String.toList_append, List.length_append,
    List.length_append] at hsteps
  exact readsEntry_write hlayout (h depth steps rest hrest (by omega)) (by omega)

/-- **The entries of an object read back**, if their values do, behind whatever entries were
read before; but then no two of all of these may share a name. -/
theorem readEntries?_separated (hlayout : layout.IsBlank) (hblanks : Blank blanks)
    {entries : List (String × Json)} (hne : entries ≠ [])
    (hvalues : ∀ entry ∈ entries, ReadsBack layout entry.2) (read : List (String × Json))
    (hnames : ((read ++ entries).map Prod.fst).Nodup)
    (hsteps : 2 * (separated ("," ++ layout.lineBreak depth)
      (writeEntries layout depth entries)).toList.length < steps) :
    readEntries? steps read ((separated ("," ++ layout.lineBreak depth)
        (writeEntries layout depth entries)).toList ++ (blanks ++ '\x7d' :: rest))
      = some (.obj (read ++ entries), rest) := by
  induction entries generalizing steps read with
  | nil => exact absurd rfl hne
  | cons entry entries ih =>
    obtain ⟨name, value⟩ := entry
    obtain ⟨hvalue, hbehind⟩ := List.forall_mem_cons.1 hvalues
    replace hvalue : ReadsBack layout value := hvalue
    obtain ⟨steps, rfl⟩ := Nat.exists_eq_succ_of_ne_zero (Nat.ne_zero_of_lt hsteps)
    have hnew : insertEntry read name value = read ++ [(name, value)] := by
      refine insertEntry_of_not_mem (fun hmem => ?_) value
      rw [List.map_append, List.nodup_append] at hnames
      exact hnames.2.2 name hmem name List.mem_cons_self rfl
    cases entries with
    | nil =>
      rw [writeEntries, writeEntries, separated] at hsteps ⊢
      have hread := hvalue.readsEntry hlayout name depth
        (delimited_append hblanks (delimited_cons (c := '\x7d') rfl rest))
        (Nat.le_of_lt_succ hsteps)
      have hclose : skipBlanks (blanks ++ '\x7d' :: rest) = '\x7d' :: rest := by
        rw [skipBlanks_append hblanks, skipBlanks_cons rfl]
      rw [readEntries?_close hread hclose, hnew]
    | cons next entries =>
      obtain ⟨nextName, nextValue⟩ := next
      -- the other entries stand behind a comma and blanks
      rw [writeEntries, writeEntries, toList_separated_cons, ← writeEntries,
        toList_comma_lineBreak] at hsteps ⊢
      rw [List.length_append, List.length_append, List.length_cons] at hsteps
      simp only [List.append_assoc, List.cons_append]
      have hdelimited := delimited_cons (c := ',') rfl ((layout.lineBreak depth).toList
        ++ ((separated ("," ++ layout.lineBreak depth)
          (writeEntries layout depth ((nextName, nextValue) :: entries))).toList
            ++ (blanks ++ '\x7d' :: rest)))
      have hread : ReadsEntry steps _ name value _ :=
        hvalue.readsEntry hlayout name depth hdelimited (by omega)
      rw [readEntries?_comma hread (skipBlanks_cons rfl _),
        readEntries?_append (hlayout.lineBreak depth), hnew,
        ih (List.cons_ne_nil _ entries) hbehind (read ++ [(name, value)])
          (by rwa [List.append_assoc]) (by omega), List.append_assoc]
      rfl

end Parts

/-! ## Reading any value back -/

section Values

variable {layout : Layout}

theorem readsBack_null : ReadsBack layout null := by
  intro depth steps rest _ hsteps
  rw [write] at hsteps ⊢
  have hroom : 7 < steps := hsteps
  obtain ⟨steps, rfl⟩ := Nat.exists_eq_succ_of_ne_zero (Nat.ne_zero_of_lt hroom)
  rw [readValue?]
  rfl

theorem readsBack_bool (value : Bool) : ReadsBack layout (bool value) := by
  intro depth steps rest _ hsteps
  rw [write] at hsteps ⊢
  have hroom : 7 < steps := by
    refine Nat.lt_of_lt_of_le ?_ hsteps
    cases value <;> decide
  obtain ⟨steps, rfl⟩ := Nat.exists_eq_succ_of_ne_zero (Nat.ne_zero_of_lt hroom)
  rw [readValue?]
  cases value with
  | true => rfl
  | false => rfl

theorem readsBack_int (value : Int) : ReadsBack layout (int value) := by
  intro depth steps rest hrest hsteps
  rw [write] at hsteps ⊢
  have hread := readNumber?_toString value hrest
  cases htext : (toString value).toList with
  | nil =>
    have hliteral := ofLiteral?_toString value
    rw [htext] at hliteral
    cases hliteral
  | cons c text =>
    have hfirst : isLiteralChar c = true :=
      isLiteralChar_of_mem_toString (htext ▸ List.mem_cons_self)
    rw [htext, List.cons_append] at hread
    rw [htext, List.length_cons] at hsteps
    obtain ⟨steps, rfl⟩ := Nat.exists_eq_succ_of_ne_zero (n := steps) (by omega)
    rw [List.cons_append, readValue?_number hfirst, hread]

theorem readsBack_str (value : String) : ReadsBack layout (str value) := by
  intro depth steps rest hrest hsteps
  rw [write] at hsteps ⊢
  have hlength : 0 < (quoted value).toList.length := by
    rw [toList_quoted]
    exact Nat.succ_pos _
  obtain ⟨steps, rfl⟩ := Nat.exists_eq_succ_of_ne_zero (n := steps) (by omega)
  rw [toList_quoted, List.cons_append, List.append_assoc]
  exact readValue?_string (readString?_quoted rest (by omega))

/-- Arrays read back, if their items do. -/
theorem readsBack_arr (hlayout : layout.IsBlank) {items : List Json}
    (hitems : ∀ item ∈ items, ReadsBack layout item) : ReadsBack layout (arr items) := by
  intro depth steps rest hrest hsteps
  rw [toList_write_arr] at hsteps ⊢
  rw [List.length_cons] at hsteps
  obtain ⟨steps, rfl⟩ := Nat.exists_eq_succ_of_ne_zero (n := steps) (by omega)
  cases items with
  | nil =>
    rw [List.cons_append, readValue?]
    rfl
  | cons item items =>
    have hparts : writeItems layout (depth + 1) (item :: items) ≠ [] := by
      rw [writeItems]
      exact List.cons_ne_nil _ _
    rw [toList_bracketed layout depth hparts] at hsteps ⊢
    simp only [List.length_append, List.append_assoc, List.cons_append, List.nil_append] at hsteps ⊢
    refine readValue?_array ?_
    rw [readItems?_append (hlayout.lineBreak (depth + 1)),
      readItems?_separated hlayout (hlayout.lineBreak depth) (List.cons_ne_nil item items) hitems []
        (by omega)]
    rfl

/-- Objects read back, if their values do and no two entries share a name. -/
theorem readsBack_obj (hlayout : layout.IsBlank) {entries : List (String × Json)}
    (hnames : (entries.map Prod.fst).Nodup)
    (hvalues : ∀ entry ∈ entries, ReadsBack layout entry.2) : ReadsBack layout (obj entries) := by
  intro depth steps rest hrest hsteps
  rw [toList_write_obj] at hsteps ⊢
  rw [List.length_cons] at hsteps
  obtain ⟨steps, rfl⟩ := Nat.exists_eq_succ_of_ne_zero (n := steps) (by omega)
  cases entries with
  | nil =>
    rw [List.cons_append, readValue?]
    rfl
  | cons entry entries =>
    have hparts : writeEntries layout (depth + 1) (entry :: entries) ≠ [] := by
      rw [writeEntries]
      exact List.cons_ne_nil _ _
    rw [toList_bracketed layout depth hparts] at hsteps ⊢
    simp only [List.length_append, List.append_assoc, List.cons_append, List.nil_append] at hsteps ⊢
    refine readValue?_object ?_
    rw [readEntries?_append (hlayout.lineBreak (depth + 1)),
      readEntries?_separated hlayout (hlayout.lineBreak depth) (List.cons_ne_nil entry entries)
        hvalues [] hnames (by omega)]
    rfl

/-- **Plain values read back.** -/
theorem Plain.readsBack (hlayout : layout.IsBlank) {v : Json} (h : Plain v) :
    ReadsBack layout v := by
  induction h with
  | null => exact readsBack_null
  | bool value => exact readsBack_bool value
  | int value => exact readsBack_int value
  | str value => exact readsBack_str value
  | arr _ ih => exact readsBack_arr hlayout ih
  | obj hnames _ ih => exact readsBack_obj hlayout hnames ih

/-- A text is read if a value stands at its front and only blanks behind that. -/
theorem read?_eq_some {text : String} {v : Json} {rest : List Char}
    (h : readValue? (2 * text.toList.length + 2) text.toList = some (v, rest))
    (hrest : Blank rest) : read? text = some v := by
  have hbehind : skipBlanks rest = [] := List.dropWhile_eq_nil_iff.2 hrest
  rw [read?]
  simp only [h, hbehind]
  rfl

/-- **What is written is read**, in any layout of blanks and with any blanks behind it. -/
theorem read?_write (hlayout : layout.IsBlank) {v : Json} (h : Plain v) (depth : Nat)
    (trailing : String) (htrailing : Blank trailing.toList) :
    read? (v.write layout depth ++ trailing) = some v := by
  have hdelimited : Delimited trailing.toList := by
    have hend : Delimited [] := nofun
    simpa using delimited_append htrailing hend
  refine read?_eq_some ?_ htrailing
  rw [String.toList_append, List.length_append]
  exact h.readsBack hlayout depth _ _ hdelimited (by omega)

theorem read?_compact {v : Json} (h : Plain v) : read? v.compact = some v := by
  have hread := read?_write Layout.isBlank_compact h 0 "" (List.forall_mem_nil _)
  rwa [String.append_empty] at hread

theorem read?_spread {v : Json} (h : Plain v) : read? v.spread = some v := by
  have hread := read?_write Layout.isBlank_spread h 0 "" (List.forall_mem_nil _)
  rwa [String.append_empty] at hread

end Values

end WriteGate.Json
