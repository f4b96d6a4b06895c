import PositionFeed.Blueprint.Export
import PositionFeed.Proofs.Toml.Number
import PositionFeed.Proofs.Toml.Table
import PositionFeed.Proofs.Toml.Text

namespace PositionFeed

/-!
# Lines of a TOML document read back

A line does to the tables what it says and leaves the rest of the text to the
next line.  `Reads` says what a text comes to below a header, for any number of
steps that is not too small; each kind of line that the writer makes has one
rule for it, and the rule for a section is made of these.
-/

namespace Toml

/-- A text at the end of a line denotes a value. -/
structure IsValue (text : List Char) (node : Node) : Prop where
  /-- It does not begin with a blank. -/
  visible : ∀ c ∈ text.head?, c ≠ ' ' ∧ c ≠ '\t'
  nonempty : text ≠ []
  reads :
    ∀ {fuel : Nat} (rest : List Char),
      text.length < fuel →
        value nestingLimit fuel (text ++ '\n' :: rest) =
          some (node, '\n' :: rest)

/-! ## Values -/

theorem isValue_text (value : String) :
    IsValue (writeText value) (.text value) := by
  obtain ⟨tail, shape⟩ :=
    writeForm_eq_cons (Contents.of value.toList).valueForm value.toList
  refine
    { visible := ?_
      nonempty := ?_
      reads := ?_ }
  · intro c isFirst
    rw [writeText, shape] at isFirst
    cases isFirst
    cases (Contents.of value.toList).valueForm <;> decide
  · rw [writeText, shape]
    simp
  · intro fuel rest enough
    obtain ⟨fuel, rfl⟩ : ∃ less, fuel = less + 1 := ⟨fuel - 1, by omega⟩
    have read := congrArg
      (Option.map fun read => (Node.text (String.ofList read.1), read.2))
      (quotedText_writeText value rest)
    rw [writeText, shape, List.cons_append] at read ⊢
    simp only [Option.map_some, String.ofList_toList] at read
    rw [← read]
    cases (Contents.of value.toList).valueForm <;> rfl

/-- A run of scalar characters that denotes a value is one. -/
theorem isValue_scalar
    {run : List Char}
    {node : Node}
    (nonempty : run ≠ [])
    (all : ∀ c ∈ run, isScalarChar c = true)
    (denotes : scalar? run = some node) :
    IsValue run node := by
  obtain ⟨c, tail, rfl⟩ := List.exists_cons_of_ne_nil nonempty
  have first := all c List.mem_cons_self
  have noneOf (other : Char) (noScalar : isScalarChar other = false) :
      c ≠ other := by
    rintro rfl
    rw [first] at noScalar
    cases noScalar
  refine
    { visible := ?_
      nonempty := nonempty
      reads := ?_ }
  · intro first isFirst
    cases isFirst
    exact ⟨noneOf ' ' (by decide), noneOf '\t' (by decide)⟩
  · intro fuel rest enough
    obtain ⟨fuel, rfl⟩ : ∃ less, fuel = less + 1 := ⟨fuel - 1, by omega⟩
    have line := scalar_line all rest
    rw [denotes] at line
    rw [List.cons_append] at line ⊢
    rw [value.eq_def]
    dsimp only
    split
    · next shape =>
        exact (noneOf '[' (by decide) (List.cons.inj shape).1).elim
    · next shape =>
        exact (noneOf '\x7b' (by decide) (List.cons.inj shape).1).elim
    · next shape =>
        exact (noneOf '"' (by decide) (List.cons.inj shape).1).elim
    · next shape =>
        exact (noneOf '\'' (by decide) (List.cons.inj shape).1).elim
    · exact line

theorem isValue_number (value : Float) :
    IsValue (writeNumber value) (.fraction value) := by
  obtain ⟨all, denotes⟩ := scalar?_writeNumber value
  refine isValue_scalar ?_ all denotes
  intro empty
  rw [empty] at denotes
  cases denotes

theorem isValue_digitText
    {number : Nat}
    (bounded : number < Word.size 128) :
    IsValue (Decimal.digitText number) (.integer number) :=
  isValue_scalar (digitText_ne_nil number)
    (fun c member =>
      isScalarChar_of_isDigit (AllDigits.digitText number c member))
    (scalar?_digitText bounded)

/-- An array of nothing. -/
theorem isValue_brackets :
    IsValue "[]".toList (.sequence [] true) where
  visible := by simp
  nonempty := by simp
  reads := by
    intro fuel rest enough
    obtain ⟨fuel, rfl⟩ : ∃ less, fuel = less + 3 := ⟨fuel - 3, by
      simp at enough
      omega⟩
    rfl

/-! ## What stands around values -/

/-- What a line with a key or a header can begin with. -/
theorem skipGap_cons
    {c : Char}
    (begins : c ∉ [' ', '\t', '#', '\n', '\r'])
    (rest : List Char) :
    skipGap (c :: rest) = c :: rest := by
  simp only [List.mem_cons, List.not_mem_nil, or_false, not_or] at begins
  obtain ⟨noSpace, noTab, noMark, noLineFeed, noReturn⟩ := begins
  have noBlanks : skipBlanks (c :: rest) = c :: rest := by
    simp [skipBlanks, noSpace, noTab]
  have noComment : skipComment (c :: rest) = c :: rest := by
    unfold skipComment
    split
    · next shape =>
        exact (noMark (List.cons.inj shape).1).elim
    · rfl
  have noEnd : lineEnd? (c :: rest) = none := by
    unfold lineEnd?
    split
    · next shape =>
        exact (noLineFeed (List.cons.inj shape).1).elim
    · next shape =>
        exact (noReturn (List.cons.inj shape).1).elim
    · rfl
  simp only [skipGap, List.length_cons, skipLines, noBlanks, noComment, noEnd]

theorem skipGap_lineFeed
    (rest : List Char) :
    skipGap ('\n' :: rest) = skipGap rest := by
  simp [skipGap, skipLines, skipBlanks, skipComment, lineEnd?]

theorem endOfLine_lineFeed
    (rest : List Char) :
    endOfLine ('\n' :: rest) = some rest := by
  simp [endOfLine, skipBlanks, skipComment, lineEnd?]

theorem skipBlanks_cons
    {c : Char}
    (noSpace : c ≠ ' ')
    (noTab : c ≠ '\t')
    (rest : List Char) :
    skipBlanks (c :: rest) = c :: rest := by
  simp [skipBlanks, noSpace, noTab]

theorem skipBlanks_space
    (rest : List Char) :
    skipBlanks (' ' :: rest) = skipBlanks rest := by
  simp [skipBlanks]

/-- What a written key can begin with. -/
theorem writeKey_eq_cons
    (key : String) :
    ∃ c tail,
      writeKey key = c :: tail ∧
        (c = '"' ∨ c = '\'' ∨ isKeyChar c = true) := by
  unfold writeKey
  dsimp only
  split
  · next bare =>
      obtain ⟨nonempty, all⟩ := bare
      obtain ⟨c, tail, shape⟩ :=
        List.exists_cons_of_ne_nil (l := key.toList) (by simpa using nonempty)
      refine ⟨c, tail, shape, .inr (.inr ?_)⟩
      exact List.all_eq_true.mp all c (by simp [shape])
  · obtain ⟨tail, shape⟩ :=
      writeForm_eq_cons (Contents.of key.toList).keyForm key.toList
    refine ⟨_, tail, shape, ?_⟩
    cases (Contents.of key.toList).keyForm <;> simp [Form.quote]

/-- What begins a key does not begin anything else. -/
theorem notOf_keyStart
    {c : Char}
    (start : c = '"' ∨ c = '\'' ∨ isKeyChar c = true)
    (other : Char)
    (noKeyChar : isKeyChar other = false)
    (noQuote : other ∉ ['"', '\'']) :
    c ≠ other := by
  rintro rfl
  rcases start with rfl | rfl | keyChar
  · simp at noQuote
  · simp at noQuote
  · rw [keyChar] at noKeyChar
    cases noKeyChar

/-- A key is read up to the mark before its value. -/
theorem dottedKey_writeKey
    (key : String)
    (rest : List Char)
    (fuel : Nat) :
    dottedKey (fuel + 1) (writeKey key ++ ' ' :: '=' :: rest) =
      some ([key], '=' :: rest) := by
  have read := simpleKey_writeKey key ('=' :: rest)
  obtain ⟨c, tail, shape, start⟩ := writeKey_eq_cons key
  rw [shape, List.cons_append] at read ⊢
  rw [dottedKey,
    skipBlanks_cons (notOf_keyStart start ' ' (by decide) (by decide))
      (notOf_keyStart start '\t' (by decide) (by decide)), read]
  simp [skipBlanks]

/-- Keys with points between them. -/
def dotted : List String → List Char
  | [] => []
  | [key] => key.toList
  | key :: rest => key.toList ++ '.' :: dotted rest

/-- A key that needs no quotes. -/
def IsBare (key : String) : Prop :=
  key.toList ≠ [] ∧ ∀ c ∈ key.toList, isKeyChar c = true

theorem skipBlanks_bare
    {key : String}
    (bare : IsBare key)
    (rest : List Char) :
    skipBlanks (key.toList ++ rest) = key.toList ++ rest := by
  obtain ⟨nonempty, all⟩ := bare
  obtain ⟨c, tail, shape⟩ := List.exists_cons_of_ne_nil nonempty
  have keyChar := all c (by simp [shape])
  rw [shape, List.cons_append]
  exact skipBlanks_cons
    (notOf_keyStart (.inr (.inr keyChar)) ' ' (by decide) (by decide))
    (notOf_keyStart (.inr (.inr keyChar)) '\t' (by decide) (by decide)) _

/-- The keys of a header are read up to its closing bracket. -/
theorem dottedKey_dotted
    {keys : List String}
    (nonempty : keys ≠ [])
    (bare : ∀ key ∈ keys, IsBare key)
    (rest : List Char)
    {fuel : Nat}
    (enough : (dotted keys).length < fuel) :
    dottedKey fuel (dotted keys ++ ']' :: rest) = some (keys, ']' :: rest) := by
  fun_induction dotted generalizing fuel with
  | case1 =>
      exact (nonempty rfl).elim
  | case2 key =>
      obtain ⟨fuel, rfl⟩ : ∃ less, fuel = less + 1 := ⟨fuel - 1, by omega⟩
      have isBare := bare key (by simp)
      rw [dottedKey, skipBlanks_bare isBare,
        simpleKey_bare isBare.1 isBare.2 (by simp [isKeyChar])]
      simp [skipBlanks]
  | case3 key rest' several inductionHypothesis =>
      obtain ⟨fuel, rfl⟩ : ∃ less, fuel = less + 1 := ⟨fuel - 1, by omega⟩
      have isBare := bare key (by simp)
      have later := inductionHypothesis (fun none => several none)
        (fun key member => bare key (List.mem_cons_of_mem _ member))
        (show _ < fuel by
          simp at enough
          omega)
      rw [List.append_assoc, dottedKey, skipBlanks_bare isBare,
        simpleKey_bare isBare.1 isBare.2 (by simp [isKeyChar])]
      simp [skipBlanks, later]

/-! ## Lines -/

/-- Below a header and with the tables so far, a text comes to these tables. -/
def Reads (path : List String) (entries : Entries) (text : List Char)
    (result : Entries) : Prop :=
  ∀ fuel, text.length < fuel → lines fuel path entries text = some result

namespace Reads

variable
  {path : List String}
  {entries after result : Entries}
  {text : List Char}

theorem nil
    (path : List String)
    (entries : Entries) :
    Reads path entries [] entries := by
  intro fuel enough
  obtain ⟨fuel, rfl⟩ : ∃ less, fuel = less + 1 := ⟨fuel - 1, by omega⟩
  rfl

/-- An empty line says nothing. -/
theorem lineFeed
    (rest : Reads path entries text result) :
    Reads path entries ('\n' :: text) result := by
  intro fuel enough
  obtain ⟨fuel, rfl⟩ : ∃ less, fuel = less + 1 := ⟨fuel - 1, by omega⟩
  have same := rest (fuel + 1) (by
    simp at enough
    omega)
  rw [lines.eq_def] at same ⊢
  dsimp only at same ⊢
  rwa [skipGap_lineFeed]

/-- A line with a key and a value puts the value into the current table. -/
theorem pair
    {key : String}
    {valueText : List Char}
    {node : Node}
    (isValue : IsValue valueText node)
    (assigned : entries.enter (Entries.assign node [key]) path = some after)
    (rest : Reads path after text result) :
    Reads path entries (writePair key valueText ++ text) result := by
  intro fuel enough
  obtain ⟨fuel, rfl⟩ : ∃ less, fuel = less + 1 := ⟨fuel - 1, by omega⟩
  have shape : writePair key valueText ++ text =
      writeKey key ++ ' ' :: '=' :: ' ' :: (valueText ++ '\n' :: text) := by
    simp [writePair]
  rw [shape] at enough ⊢
  obtain ⟨c, tail, begins, start⟩ := writeKey_eq_cons key
  have keyRead := dottedKey_writeKey key (' ' :: (valueText ++ '\n' :: text))
  rw [begins, List.cons_append] at keyRead enough ⊢
  rw [lines.eq_def]
  dsimp only
  rw [skipGap_cons fun member => ?noGap]
  case noGap =>
    revert member
    rcases start with rfl | rfl | keyChar
    · decide
    · decide
    · intro member
      fin_cases member <;> cases keyChar
  have noBracket := notOf_keyStart start '[' (by decide) (by decide)
  have blanks : skipBlanks (' ' :: (valueText ++ '\n' :: text)) =
      valueText ++ '\n' :: text := by
    obtain ⟨first, more, isFirst⟩ := List.exists_cons_of_ne_nil isValue.nonempty
    have visible := isValue.visible first (by simp [isFirst])
    rw [skipBlanks_space, isFirst]
    exact skipBlanks_cons visible.1 visible.2 _
  have enoughSteps :
      valueText.length <
        (c :: (tail ++ ' ' :: '=' :: ' ' ::
          (valueText ++ '\n' :: text))).length + 1 := by
    simp
    omega
  have valueRead := isValue.reads text enoughSteps
  have later := rest fuel (by
    simp at enough
    omega)
  split
  · next shape =>
      cases shape
  · next shape =>
      exact (noBracket (List.cons.inj shape).1).elim
  · next shape =>
      exact (noBracket (List.cons.inj shape).1).elim
  · simp only [Option.bind_eq_bind, keyRead, Option.bind_some, blanks,
      valueRead, endOfLine_lineFeed, assigned, later]

section Header

variable
  {keys before : List String}
  {last : String}

theorem splitLast_append :
    splitLast (before ++ [last]) = some (before, last) := by
  simp [splitLast]

theorem dotted_ne_bracket
    (nonempty : keys ≠ [])
    (bare : ∀ key ∈ keys, IsBare key)
    (rest after : List Char) :
    dotted keys ++ rest ≠ '[' :: after := by
  intro shape
  obtain ⟨key, others, rfl⟩ := List.exists_cons_of_ne_nil nonempty
  obtain ⟨more, begins⟩ : ∃ more, dotted (key :: others) = key.toList ++ more := by
    cases others with
    | nil =>
        exact ⟨[], (List.append_nil _).symm⟩
    | cons other others =>
        exact ⟨_, rfl⟩
  obtain ⟨someChar, all⟩ := bare key List.mem_cons_self
  obtain ⟨c, tail, keyShape⟩ := List.exists_cons_of_ne_nil someChar
  have keyChar := all c (by simp [keyShape])
  rw [begins, keyShape] at shape
  rw [(List.cons.inj shape).1] at keyChar
  cases keyChar

/-- A header opens a table of its own. -/
theorem table
    (keysShape : keys = before ++ [last])
    (bare : ∀ key ∈ keys, IsBare key)
    (opened : entries.enter (Entries.openTable last) before = some after)
    (rest : Reads keys after text result) :
    Reads path entries ('[' :: (dotted keys ++ ']' :: '\n' :: text))
      result := by
  intro fuel enough
  obtain ⟨fuel, rfl⟩ : ∃ less, fuel = less + 1 := ⟨fuel - 1, by omega⟩
  have nonempty : keys ≠ [] := by
    simp [keysShape]
  have keysRead := dottedKey_dotted nonempty bare ('\n' :: text)
    (show _ < (dotted keys ++ ']' :: '\n' :: text).length + 1 by simp)
  have later := rest fuel (by
    simp at enough
    omega)
  have split : splitLast keys = some (before, last) := by
    rw [keysShape, splitLast_append]
  rw [lines.eq_def]
  dsimp only
  rw [skipGap_cons (by decide)]
  split
  · next shape =>
      cases shape
  · next shape =>
      exact (dotted_ne_bracket nonempty bare _ _ (List.cons.inj shape).2).elim
  · next shape =>
      cases shape
      simp only [Option.bind_eq_bind, keysRead, Option.bind_some,
        endOfLine_lineFeed, split, opened, later]
  · next other =>
      exact (other _ rfl).elim

/-- A double header opens another table of an array. -/
theorem element
    (keysShape : keys = before ++ [last])
    (bare : ∀ key ∈ keys, IsBare key)
    (opened : entries.enter (Entries.openElement last) before = some after)
    (rest : Reads keys after text result) :
    Reads path entries
      ('[' :: '[' :: (dotted keys ++ ']' :: ']' :: '\n' :: text)) result := by
  intro fuel enough
  obtain ⟨fuel, rfl⟩ : ∃ less, fuel = less + 1 := ⟨fuel - 1, by omega⟩
  have nonempty : keys ≠ [] := by
    simp [keysShape]
  have keysRead := dottedKey_dotted nonempty bare (']' :: '\n' :: text)
    (show _ < (dotted keys ++ ']' :: ']' :: '\n' :: text).length + 1 by simp)
  have later := rest fuel (by
    simp at enough
    omega)
  have split : splitLast keys = some (before, last) := by
    rw [keysShape, splitLast_append]
  rw [lines.eq_def]
  dsimp only
  rw [skipGap_cons (by decide)]
  simp only [Option.bind_eq_bind, keysRead, Option.bind_some,
    endOfLine_lineFeed, split, opened, later]

end Header

end Reads

/-! ## Sections -/

/-- A line with a key and a value. -/
structure Row where
  key : String
  text : List Char
  node : Node
  isValue : IsValue text node

namespace Row

def line (row : Row) : List Char :=
  writePair row.key row.text

/-- What the line puts into its table. -/
def pair (row : Row) : String × Node :=
  (row.key, row.node)

def ofText (key value : String) : Row where
  key := key
  text := writeText value
  node := .text value
  isValue := isValue_text value

def ofNumber (key : String) (value : Float) : Row where
  key := key
  text := writeNumber value
  node := .fraction value
  isValue := isValue_number value

def ofWhole (key : String) (value : Nat) (bounded : value < Word.size 128) :
    Row where
  key := key
  text := Decimal.digitText value
  node := .integer value
  isValue := isValue_digitText bounded

/-- A key with an empty array. -/
def ofNothing (key : String) : Row where
  key := key
  text := "[]".toList
  node := .sequence [] true
  isValue := isValue_brackets

end Row

/-- An empty line, the header of a table and its lines. -/
def tableText (keys : List String) (rows : List Row) : List Char :=
  '\n' :: '[' :: (dotted keys ++ ']' :: '\n' :: rows.flatMap Row.line)

theorem tableText_append
    (keys : List String)
    (rows : List Row)
    (text : List Char) :
    tableText keys rows ++ text =
      '\n' :: '[' ::
        (dotted keys ++ ']' :: '\n' :: (rows.flatMap Row.line ++ text)) := by
  simp [tableText]

/-- An empty line, the header of another table of an array and its lines. -/
def elementText (key : String) (rows : List Row) : List Char :=
  '\n' :: '[' :: '[' ::
    (dotted [key] ++ ']' :: ']' :: '\n' :: rows.flatMap Row.line)

theorem elementText_append
    (key : String)
    (rows : List Row)
    (text : List Char) :
    elementText key rows ++ text =
      '\n' :: '[' :: '[' ::
        (dotted [key] ++ ']' :: ']' :: '\n' ::
          (rows.flatMap Row.line ++ text)) := by
  simp [elementText]

namespace Reads

variable
  {path : List String}
  {entries before result : Entries}
  {text : List Char}
  {key inside : String}
  {rows insideRows : List Row}

/-- Lines with distinct new keys put their values into the current table. -/
theorem rowLines
    {whole : Entries → Entries}
    {inner : Entries}
    (focus : Focus path whole)
    (distinct : (rows.map Row.key).Nodup)
    (free : ∀ row ∈ rows, inner.lookup row.key = none)
    (rest :
      Reads path (whole (inner ++ valueItems (rows.map Row.pair))) text
        result) :
    Reads path (whole inner) (rows.flatMap Row.line ++ text) result := by
  induction rows generalizing inner with
  | nil =>
      simpa [valueItems] using rest
  | cons row rows inductionHypothesis =>
      rw [List.map_cons, List.nodup_cons] at distinct
      have absent := free row List.mem_cons_self
      have assigned :
          (whole inner).enter (Entries.assign row.node [row.key]) path =
            some (whole (inner ++ [(row.key, .value row.node)])) := by
        rw [focus, Entries.assign, absent]
        rfl
      rw [List.flatMap_cons, List.append_assoc]
      refine pair row.isValue assigned (inductionHypothesis distinct.2 ?_ ?_)
      · intro other member
        have differs : row.key ≠ other.key := by
          intro same
          exact distinct.1 (List.mem_map.mpr ⟨other, member, same.symm⟩)
        rw [Entries.lookup_append, free other (List.mem_cons_of_mem _ member),
          Entries.lookup_cons_of_ne differs]
        rfl
      · simpa [valueItems, Row.pair] using rest

/-- A section is a table under its key. -/
theorem tableSection
    (bare : IsBare key)
    (absent : entries.lookup key = none)
    (distinct : (rows.map Row.key).Nodup)
    (rest :
      Reads [key]
        (entries ++ [(key, .table .header (valueItems (rows.map Row.pair)))])
        text result) :
    Reads path entries (tableText [key] rows ++ text) result := by
  have opened : entries.enter (Entries.openTable key) [] =
      some (entries ++ [(key, .table .header [])]) := by
    rw [Entries.enter, Entries.openTable, absent]
  have nothing : ∀ row ∈ rows, List.lookup row.key ([] : Entries) = none :=
    fun _ _ => rfl
  have below :=
    rowLines (Focus.here.table absent .header) distinct nothing rest
  rw [tableText_append]
  exact (table rfl (by simpa using bare) opened below).lineFeed

/-- A section of an array, and one for the table inside it, are another table
of the array. -/
theorem elementSection
    {tables : List Entries}
    (bare : IsBare key)
    (insideBare : IsBare inside)
    (absent : before.lookup key = none)
    (distinct : (rows.map Row.key).Nodup)
    (insideFree : inside ∉ rows.map Row.key)
    (insideDistinct : (insideRows.map Row.key).Nodup)
    (rest :
      Reads [key, inside]
        (withTables key
          (tables ++
            [valueItems (rows.map Row.pair) ++
              [(inside,
                .table .header (valueItems (insideRows.map Row.pair)))]])
          before)
        text result) :
    Reads path (withTables key tables before)
      (elementText key rows ++ (tableText [key, inside] insideRows ++ text))
      result := by
  have opened :
      (withTables key tables before).enter (Entries.openElement key) [] =
        some (before ++ [(key, .tables tables [])]) := by
    rw [Entries.enter, openElement_withTables absent, withTables_append]
  have insideAbsent :
      List.lookup inside (valueItems (rows.map Row.pair)) = none := by
    apply lookup_valueItems
    simpa [Row.pair, Function.comp_def] using insideFree
  have insideOpened :=
    (Focus.here.tables absent tables) (Entries.openTable inside)
      (valueItems (rows.map Row.pair))
  rw [Entries.openTable, insideAbsent] at insideOpened
  have nothing (rows : List Row) :
      ∀ row ∈ rows, List.lookup row.key ([] : Entries) = none :=
    fun _ _ => rfl
  rw [withTables_append] at rest
  have belowInside :=
    rowLines ((Focus.here.table insideAbsent .header).tables absent tables)
      insideDistinct (nothing insideRows) rest
  have insideBares : ∀ other ∈ [key, inside], IsBare other := by
    simpa using ⟨bare, insideBare⟩
  have below :=
    rowLines (Focus.here.tables absent tables) distinct (nothing rows)
      (table rfl insideBares insideOpened belowInside).lineFeed
  rw [elementText_append, tableText_append]
  exact (element rfl (by simpa using bare) opened below).lineFeed

end Reads

/-- A document has the tree of the tables that it comes to. -/
theorem document?_eq
    {text : List Char}
    {result : Entries}
    (noMark : text.head? ≠ some '\ufeff')
    (reads : Reads [] [] text result) :
    document? text = some (tableNode (entryNodes result)) := by
  have same : dropMark text = text := by
    unfold dropMark
    split
    · exact (noMark rfl).elim
    · rfl
  rw [document?, same, reads _ (Nat.lt_succ_self _)]
  rfl

end Toml

end PositionFeed
