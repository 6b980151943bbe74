import ImportAtlas.Module.Analysis
import ImportAtlas.Proofs.SourcePlace

/-!
# Texts of module statements

Plain module statements, the texts they are written as, and the items they
stand for.  A text is a row of words, each after the space that separates it
from the word before, and is cut into these words again.
-/

namespace ImportAtlas

open Grammar (Piece PieceKind)
open Source (Cursor)

/-! ## Statements -/

def statementWords : List String :=
  ["import", "export", "from", "as", "type", "typeof"]

structure PlainName where
  text : String
  letters : text.toList.all Piece.isNamePart = true := by decide
  opening : text.toList.head?.any (fun c => !c.isDigit) = true := by decide
  ordinary : text ∉ statementWords := by decide

def isSpecifierPart (c : Char) : Bool :=
  !ModuleItem.isQuote c && c != '\\' && c != '\r' && c != '\n' &&
    !Source.isNull c

structure PlainSpecifier where
  text : String
  parts : text.toList.all isSpecifierPart = true := by decide

structure NameEntry where
  name : PlainName
  newName : Option PlainName := none

structure NameList where
  first : NameEntry
  others : List NameEntry := []

inductive ModuleStatement where
  | importBare (source : PlainSpecifier)
  | importDefault (name : PlainName) (source : PlainSpecifier)
  | importWhole (name : PlainName) (source : PlainSpecifier)
  | importNames (names : NameList) (source : PlainSpecifier)
  | importDefaultAndNames (name : PlainName) (names : NameList)
      (source : PlainSpecifier)
  | passNames (names : NameList) (source : PlainSpecifier)
  | passAll (source : PlainSpecifier)
  | passWhole (name : PlainName) (source : PlainSpecifier)
  | exportNames (names : NameList)

namespace NameEntry

def text (entry : NameEntry) : String :=
  match entry.newName with
  | none => entry.name.text
  | some newName => entry.name.text ++ " as " ++ newName.text

def pair (entry : NameEntry) : String × String :=
  (entry.name.text, (entry.newName.getD entry.name).text)

end NameEntry

namespace NameList

def entries (names : NameList) : List NameEntry :=
  names.first :: names.others

def text (names : NameList) : String :=
  "\x7b " ++ ", ".intercalate (names.entries.map NameEntry.text) ++ " \x7d"

def pairs (names : NameList) : List (String × String) :=
  names.entries.map NameEntry.pair

def bindings (names : NameList) : List Binding :=
  names.pairs.map fun (imported, localName) => ⟨imported, localName⟩

end NameList

def PlainSpecifier.tail (source : PlainSpecifier) : String :=
  " from '" ++ source.text ++ "';"

namespace ModuleStatement

def text : ModuleStatement → String
  | .importBare source => "import '" ++ source.text ++ "';"
  | .importDefault name source => "import " ++ name.text ++ source.tail
  | .importWhole name source => "import * as " ++ name.text ++ source.tail
  | .importNames names source => "import " ++ names.text ++ source.tail
  | .importDefaultAndNames name names source =>
    "import " ++ name.text ++ ", " ++ names.text ++ source.tail
  | .passNames names source => "export " ++ names.text ++ source.tail
  | .passAll source => "export *" ++ source.tail
  | .passWhole name source => "export * as " ++ name.text ++ source.tail
  | .exportNames names => "export " ++ names.text ++ ";"

def item (line : Nat) (statement : ModuleStatement) : ModuleItem :=
  let site (source : PlainSpecifier) (bindings : List Binding) : ImportSite :=
    ⟨source.text, bindings, .ofBindings bindings, line, 1, statement.text⟩
  match statement with
  | .importBare source => .staticImport (site source [])
  | .importDefault name source =>
    .staticImport (site source [.defaultAs name.text])
  | .importWhole name source => .staticImport (site source [.wholeAs name.text])
  | .importNames names source => .staticImport (site source names.bindings)
  | .importDefaultAndNames name names source =>
    .staticImport (site source (.defaultAs name.text :: names.bindings))
  | .passNames names source =>
    .reExport (site source (names.pairs.map fun (name, _) => .named name))
      names.pairs
  | .passAll source => .reExportAll (site source [.wholeAs wholeName]) none
  | .passWhole name source =>
    .reExportAll (site source [.wholeAs name.text]) (some name.text)
  | .exportNames names => .exportClause names.pairs

end ModuleStatement

/-! ## Words -/

/-- What a statement is made of after its first word and before its semicolon.
-/
inductive StatementWord where
  | fromWord
  | asWord
  | name (name : PlainName)
  | quoted (source : PlainSpecifier)
  | star
  | comma
  | opening
  | closing

namespace StatementWord

def kind : StatementWord → PieceKind
  | .fromWord => .fromWord
  | .asWord => .asWord
  | .name _ => .name
  | .quoted _ => .quoted
  | .star => .star
  | .comma => .comma
  | .opening => .opening
  | .closing => .closing

def letters : StatementWord → List Char
  | .fromWord => ['f', 'r', 'o', 'm']
  | .asWord => ['a', 's']
  | .name word => word.text.toList
  | .quoted source => '\'' :: (source.text.toList ++ ['\''])
  | .star => ['*']
  | .comma => [',']
  | .opening => ['\x7b']
  | .closing => ['\x7d']

def gap : StatementWord → List Char
  | .comma => []
  | _ => [' ']

def textOf (words : List StatementWord) : List Char :=
  words.flatMap fun word => word.gap ++ word.letters

/-- The pieces of a row of words between two texts. -/
def cut (before : List Char) : List StatementWord → List Char → List Piece
  | [], _ => []
  | word :: words, rest =>
    ⟨word.kind, Cursor.after (before ++ word.gap) (word.letters ++
        (textOf words ++ rest)), Cursor.after (before ++ word.gap ++
          word.letters) (textOf words ++ rest)⟩ ::
      cut (before ++ word.gap ++ word.letters) words rest

theorem textOf_nil : textOf [] = [] := rfl

theorem textOf_cons (word : StatementWord) (words : List StatementWord) :
    textOf (word :: words) = word.gap ++ word.letters ++ textOf words := rfl

theorem textOf_append (first second : List StatementWord) :
    textOf (first ++ second) = textOf first ++ textOf second :=
  List.flatMap_append

theorem cut_append (before : List Char) (first second : List StatementWord)
    (rest : List Char) :
    cut before (first ++ second) rest =
      cut before first (textOf second ++ rest) ++
        cut (before ++ textOf first) second rest := by
  induction first generalizing before with
  | nil => simp [cut, textOf]
  | cons word first ih =>
      rw [List.cons_append, cut, cut, ih, textOf_append, textOf_cons]
      simp

end StatementWord

def NameEntry.words (entry : NameEntry) : List StatementWord :=
  match entry.newName with
  | none => [.name entry.name]
  | some newName => [.name entry.name, .asWord, .name newName]

def NameEntry.listWords : NameEntry → List NameEntry → List StatementWord
  | entry, [] => entry.words
  | entry, next :: others => entry.words ++ .comma :: next.listWords others

def NameList.words (names : NameList) : List StatementWord :=
  .opening :: names.first.listWords names.others ++ [.closing]

def PlainSpecifier.words (source : PlainSpecifier) : List StatementWord :=
  [.fromWord, .quoted source]

namespace ModuleStatement

def verb : ModuleStatement → String
  | .importBare _ | .importDefault _ _ | .importWhole _ _ | .importNames
      _ _ | .importDefaultAndNames _ _ _ => "import"
  | .passNames _ _ | .passAll _ | .passWhole _ _ | .exportNames _ => "export"

def verbKind : ModuleStatement → PieceKind
  | .importBare _ | .importDefault _ _ | .importWhole _ _ | .importNames
      _ _ | .importDefaultAndNames _ _ _ =>
    .importWord
  | .passNames _ _ | .passAll _ | .passWhole _ _ | .exportNames _ => .exportWord

def words : ModuleStatement → List StatementWord
  | .importBare source => [.quoted source]
  | .importDefault name source => .name name :: source.words
  | .importWhole name source => .star :: .asWord :: .name name :: source.words
  | .importNames names source => names.words ++ source.words
  | .importDefaultAndNames name names source =>
    .name name :: .comma :: names.words ++ source.words
  | .passNames names source => names.words ++ source.words
  | .passAll source => .star :: source.words
  | .passWhole name source => .star :: .asWord :: .name name :: source.words
  | .exportNames names => names.words

end ModuleStatement

/-! ## Texts as rows of words -/

open StatementWord (cut textOf)

theorem NameEntry.textOf_words (entry : NameEntry) :
    textOf entry.words = ' ' :: entry.text.toList := by
  unfold NameEntry.words NameEntry.text
  cases entry.newName with
  | none => simp [textOf, StatementWord.gap, StatementWord.letters]
  | some newName =>
      simp only [StatementWord.textOf_cons, StatementWord.textOf_nil,
        StatementWord.gap, StatementWord.letters, String.toList_append,
        List.append_assoc, List.append_nil]
      rfl

private theorem NameEntry.textOf_listWords (entry : NameEntry)
    (others : List NameEntry) :
    textOf (entry.listWords others) = ' ' ::
      (", ".intercalate ((entry :: others).map NameEntry.text)).toList := by
  induction others generalizing entry with
  | nil =>
    rw [NameEntry.listWords, NameEntry.textOf_words, List.map_singleton,
      String.intercalate_singleton]
  | cons next others ih =>
      rw [NameEntry.listWords, StatementWord.textOf_append,
        StatementWord.textOf_cons, ih, NameEntry.textOf_words, List.map_cons,
        List.map_cons, List.map_cons, String.intercalate_cons_cons]
      simp [StatementWord.gap, StatementWord.letters, String.toList_append]

theorem NameList.textOf_words (names : NameList) :
    textOf names.words = ' ' :: names.text.toList := by
  rw [NameList.words, StatementWord.textOf_append, StatementWord.textOf_cons,
    NameEntry.textOf_listWords, NameList.text, NameList.entries]
  simp [textOf, StatementWord.gap, StatementWord.letters, String.toList_append]

private theorem PlainSpecifier.toList_tail (source : PlainSpecifier) :
    source.tail.toList = textOf source.words ++ [';'] := by
  simp [PlainSpecifier.tail, PlainSpecifier.words, textOf, StatementWord.gap,
    StatementWord.letters, String.toList_append]

theorem ModuleStatement.toList_text (statement : ModuleStatement) :
    statement.text.toList = statement.verb.toList ++
      (textOf statement.words ++ [';']) := by
  unfold text verb words
  cases statement <;>
    simp only [StatementWord.textOf_cons, StatementWord.textOf_append,
      NameList.textOf_words, PlainSpecifier.toList_tail,
      StatementWord.textOf_nil, StatementWord.gap, StatementWord.letters,
      String.toList_append, List.append_assoc, List.cons_append,
        List.nil_append, List.append_nil]
  -- only the words that every statement of a form begins with are left
  all_goals rfl

/-! ## Letters of names and specifiers -/

theorem Source.countWhileFrom_append {holds : Char → Bool} (count : Nat)
    {first : List Char} (hfirst : first.all holds = true) (rest : List Char) :
    Source.countWhileFrom holds count (first ++ rest) =
      Source.countWhileFrom holds (count + first.length) rest := by
  induction first generalizing count with
  | nil => rfl
  | cons c first ih =>
      rw [List.all_cons, Bool.and_eq_true] at hfirst
      rw [List.cons_append, Source.countWhileFrom, if_pos hfirst.1,
        ih _ hfirst.2, List.length_cons]
      congr 1
      omega

theorem Source.countWhile_append {holds : Char → Bool} {first : List Char}
    (hfirst : first.all holds = true) {rest : List Char}
    (hrest : rest.head?.any holds = false) :
    Source.countWhile holds (first ++ rest) = first.length := by
  rw [Source.countWhile, Source.countWhileFrom_append 0 hfirst, Nat.zero_add]
  cases rest with
  | nil => rfl
  | cons c rest => rw [Source.countWhileFrom, if_neg (by simpa using hrest)]

namespace Grammar.Piece

private theorem toNat_of_isNamePart {c : Char} (h : isNamePart c = true) :
    36 ≤ c.toNat ∧ c.toNat ≤ 122 := by
  change ((decide ('A'.val ≤ c.val ∧ c.val ≤ 'Z'.val) ||
    (decide ('a'.val ≤ c.val) && decide (c.val ≤ 'z'.val))) ||
    (decide ('0'.val ≤ c.val) && decide (c.val ≤ '9'.val)) || c == '_' ||
    c == '$') = true at h
  simp only [Bool.or_eq_true, Bool.and_eq_true, decide_eq_true_eq, beq_iff_eq,
    UInt32.le_iff_toNat_le] at h
  change ((((65 ≤ c.toNat ∧ c.toNat ≤ 90) ∨ (97 ≤ c.toNat ∧ c.toNat ≤ 122)) ∨
    (48 ≤ c.toNat ∧ c.toNat ≤ 57)) ∨
    c = '_') ∨ c = '$' at h
  rcases h with (h | rfl) | rfl
  · omega
  · decide
  · decide

private theorem isPunctuation_of_isNamePart {c : Char}
    (h : isNamePart c = true) : Source.isPunctuation c = false := by
  by_contra hmark
  have hall : ":;\x60\"'@#.,|^&<=>+-*/\\%?!~()[]\x7b\x7d".toList.all
    (!isNamePart ·) = true := by decide +kernel
  rw [Bool.not_eq_false, Source.isPunctuation, decide_eq_true_eq] at hmark
  have hother := List.all_eq_true.1 hall c hmark
  rw [h] at hother
  cases hother

private theorem isWordPart_of_isNamePart {c : Char} (h : isNamePart c = true) :
    Source.isWordPart c = true := by
  obtain ⟨hlow, hhigh⟩ := toNat_of_isNamePart h
  have hblank : Source.isBlank c = false := by
    simp [Source.isBlank, Source.isAsciiBlank]
    omega
  rw [Source.isWordPart, hblank, isPunctuation_of_isNamePart h]
  simp
  omega

theorem ne_of_isNamePart {c mark : Char} (h : isNamePart c = true)
    (hmark : isNamePart mark = false) : c ≠ mark := by
  rintro rfl
  rw [hmark] at h
  cases h

private theorem kindOfMark?_of_isNamePart {c : Char} (h : isNamePart c = true) :
    kindOfMark? c = none := by
  unfold kindOfMark?
  split
  case h_6 => rfl
  all_goals cases h

/-! ## Cutting a text into words -/

def Separated (text : List Char) : Prop :=
  ∃ c rest, text = c :: rest ∧ c ∈ [' ', ',', ';']

theorem separated_textOf (words : List StatementWord) (rest : List Char) :
    Separated (textOf words ++ ';' :: rest) := by
  cases words with
  | nil => exact ⟨';', rest, rfl, by simp⟩
  | cons word words =>
      cases word with
      | comma => exact ⟨',', textOf words ++ ';' :: rest, rfl, by simp⟩
      | _ => exact ⟨' ', _, rfl, by simp⟩

private theorem wordEndFrom_append {letters : List Char}
    (hletters : letters.all isNamePart = true) {rest : List Char}
    (hrest : Separated rest) (count : Nat) :
    Source.wordEndFrom .part count (letters ++ rest) =
      count + letters.length := by
  induction letters generalizing count with
  | nil =>
      obtain ⟨c, rest, rfl, hc⟩ := hrest
      simp only [List.mem_cons, List.not_mem_nil, or_false] at hc
      rcases hc with rfl | rfl | rfl <;> rfl
  | cons c letters ih =>
      rw [List.all_cons, Bool.and_eq_true] at hletters
      have hc : c ≠ '\\' := ne_of_isNamePart hletters.1 (by decide)
      have hstep : Source.wordEndFrom .part count (c :: (letters ++ rest)) =
          Source.wordEndFrom .part (count + 1) (letters ++ rest) := by
        rw [Source.wordEndFrom.eq_def]
        simp [hc, isWordPart_of_isNamePart hletters.1]
      rw [List.cons_append, hstep, ih hletters.2, List.length_cons]
      omega

theorem look?_word {word : List Char} (hletters : word.all isNamePart = true)
    (hopening : word.head?.any (fun c => !c.isDigit) = true) {kind : PieceKind}
    (hkind : kindOfWord? word = some kind)
    {rest : List Char} (hrest : Separated rest) :
    look? (word ++ rest) = some (kind, word.length) := by
  have hlength : Source.wordLength (word ++ rest) = word.length := by
    cases word with
    | nil => simp at hopening
    | cons c word =>
        rw [List.cons_append, Source.wordLength,
          if_neg (by simpa using hopening), ← List.cons_append,
          wordEndFrom_append hletters hrest, Nat.zero_add]
  cases word with
  | nil => simp at hopening
  | cons c word =>
      have hc : isNamePart c = true := by
        rw [List.all_cons, Bool.and_eq_true] at hletters
        exact hletters.1
      have hdouble : c ≠ '"' := ne_of_isNamePart hc (by decide)
      have hsingle : c ≠ '\'' := ne_of_isNamePart hc (by decide)
      rw [List.cons_append] at hlength ⊢
      rw [look?, if_neg (by simp [hdouble, hsingle])]
      simp only [kindOfMark?_of_isNamePart hc, hlength]
      simp [hkind]

private theorem kindOfWord?_name (name : PlainName) :
    kindOfWord? name.text.toList = some .name := by
  have hne : ∀ word ∈ statementWords, name.text.toList ≠ word.toList := by
    intro word hword h
    rw [String.toList_inj] at h
    exact name.ordinary (h ▸ hword)
  simp only [statementWords, List.forall_mem_cons] at hne
  obtain ⟨himport, hexport, hfrom, has, htype, htypeof, -⟩ := hne
  rw [kindOfWord?, if_neg himport, if_neg hexport, if_neg hfrom, if_neg has,
    if_neg (not_or.2 ⟨htype, htypeof⟩), if_pos name.letters]

private theorem look?_quoted (source : PlainSpecifier) (rest : List Char) :
    look? (StatementWord.letters (.quoted source) ++ rest) =
      some (.quoted, (StatementWord.letters (.quoted source)).length) := by
  have hinside : Source.quotedTextLength '\'' (source.text.toList ++
      '\'' :: rest) = source.text.toList.length := by
    refine Source.countWhile_append ?_ (by simp)
    rw [List.all_eq_true]
    intro c hc
    have hpart := List.all_eq_true.1 source.parts c hc
    simp only [isSpecifierPart, ModuleItem.isQuote, Bool.and_eq_true,
      Bool.not_eq_true', Bool.or_eq_false_iff] at hpart
    simp_all
  have hletters : StatementWord.letters (.quoted source) ++ rest =
      '\'' :: (source.text.toList ++ '\'' :: rest) := by
    simp [StatementWord.letters]
  rw [hletters, look?]
  simp [hinside, StatementWord.letters]

private theorem look?_letters (word : StatementWord) {rest : List Char}
    (hrest : Separated rest) :
    look? (word.letters ++ rest) = some (word.kind, word.letters.length) := by
  cases word with
  | fromWord => exact look?_word (by decide) (by decide) (by decide) hrest
  | asWord => exact look?_word (by decide) (by decide) (by decide) hrest
  | name name =>
    exact look?_word name.letters name.opening (kindOfWord?_name name) hrest
  | quoted source => exact look?_quoted source rest
  | star | comma | opening | closing => rfl

private theorem head?_letters (word : StatementWord) (rest : List Char) :
    (word.letters ++ rest).head?.any (· == ' ') = false := by
  cases word with
  | name name =>
      obtain ⟨text, hletters, hopening, -⟩ := name
      cases hword : text.toList with
      | nil => simp [hword] at hopening
      | cons c letters =>
          rw [hword, List.all_cons, Bool.and_eq_true] at hletters
          have hc : c ≠ ' ' := ne_of_isNamePart hletters.1 (by decide)
          simp [StatementWord.letters, hword, hc]
  | _ => rfl

private theorem all_gap (word : StatementWord) :
    word.gap.all (· == ' ') = true := by
  cases word <;> rfl

private theorem kind_ne_ending (word : StatementWord) :
    word.kind ≠ .ending := by
  cases word <;> exact nofun

theorem readWithin?_step (gap : List Char) {letters more : List Char}
    {kind : PieceKind} (hgap : gap.all (· == ' ') = true)
    (hletters : (letters ++ more).head?.any (· == ' ') = false)
    (hlook : look? (letters ++ more) = some (kind, letters.length))
    (hkind : kind ≠ .ending) (before : List Char) (c : Char)
    (budget : List Char) :
    readWithin? (c :: budget) (Cursor.after before (gap ++ (letters ++ more))) =
      (readWithin? budget (Cursor.after (before ++ gap ++ letters) more)).map
        (⟨kind, Cursor.after (before ++ gap) (letters ++ more),
          Cursor.after (before ++ gap ++ letters) more⟩ :: ·) := by
  have hspaces : Source.countWhile (· == ' ')
      (Cursor.after before (gap ++ (letters ++ more))).rest = gap.length :=
    Source.countWhile_append hgap hletters
  have hfound : look? (Cursor.after (before ++ gap) (letters ++ more)).rest =
    some (kind, letters.length) := hlook
  rw [readWithin?, hspaces, Cursor.advance_after]
  simp only [hfound, Cursor.advance_after, if_neg hkind]

def endingPiece (before rest : List Char) : Piece :=
  ⟨.ending, Cursor.after before (';' :: rest),
    Cursor.after (before ++ [';']) rest⟩

private theorem readWithin?_textOf (words : List StatementWord)
    (before rest : List Char) {budget : List Char}
    (hbudget : words.length < budget.length) :
    readWithin? budget (Cursor.after before (textOf words ++ ';' :: rest)) =
      some (cut before words (';' :: rest) ++
        [endingPiece (before ++ textOf words) rest]) := by
  induction words generalizing before budget with
  | nil =>
      cases budget with
      | nil => simp at hbudget
      | cons _ budget =>
          have hstop : (Cursor.after before (';' :: rest)).advance 1 =
              Cursor.after (before ++ [';']) rest :=
            Cursor.advance_after before [';'] rest
          rw [readWithin?, StatementWord.textOf_nil, List.append_nil,
            endingPiece, ← hstop]
          rfl
  | cons word words ih =>
      cases budget with
      | nil => simp at hbudget
      | cons _ budget =>
          -- one word takes one turn, and the text after it is separated from it
          rw [StatementWord.textOf_cons, List.append_assoc, List.append_assoc,
            readWithin?_step word.gap (all_gap word) (head?_letters word _)
              (look?_letters word (separated_textOf words rest))
              (kind_ne_ending word),
            ih _ (Nat.lt_of_succ_lt_succ hbudget)]
          simp [cut]

private theorem length_letters_pos (word : StatementWord) :
    0 < word.letters.length := by
  cases word with
  | name name =>
      cases hword : name.text.toList with
      | nil =>
          have hopening := name.opening
          simp [hword] at hopening
      | cons c letters => simp [StatementWord.letters, hword]
  | _ => simp [StatementWord.letters]

private theorem length_le_length_textOf (words : List StatementWord) :
    words.length ≤ (textOf words).length := by
  induction words with
  | nil => exact Nat.zero_le _
  | cons word words ih =>
      have hword := length_letters_pos word
      simp only [StatementWord.textOf_cons, List.length_cons,
        List.length_append]
      omega

theorem verb_cases (statement : ModuleStatement) :
    statement.verb = "import" ∧ statement.verbKind = .importWord ∨
      statement.verb = "export" ∧ statement.verbKind = .exportWord := by
  cases statement <;> simp [ModuleStatement.verb, ModuleStatement.verbKind]

private theorem look?_verb (statement : ModuleStatement) {rest : List Char}
    (hrest : Separated rest) :
    look? (statement.verb.toList ++ rest) =
      some (statement.verbKind, statement.verb.toList.length) := by
  rcases verb_cases statement with ⟨hverb, hkind⟩ | ⟨hverb, hkind⟩ <;>
    rw [hverb, hkind] <;>
    exact look?_word (by decide) (by decide) (by decide) hrest

def afterVerb (statement : ModuleStatement) (before rest : List Char) :
    List Piece :=
  cut (before ++ statement.verb.toList) statement.words (';' :: rest) ++
    [endingPiece (before ++ statement.verb.toList ++
      textOf statement.words) rest]

theorem read?_statement (statement : ModuleStatement)
    (before rest : List Char) :
    read? (Cursor.after before (statement.text.toList ++ rest)) =
      some
        (⟨statement.verbKind,
          Cursor.after before (statement.text.toList ++ rest),
          Cursor.after (before ++ statement.verb.toList)
          (textOf statement.words ++ ';' :: rest)⟩ ::
        afterVerb statement before rest) := by
  have htext : statement.text.toList ++ rest = statement.verb.toList ++
      (textOf statement.words ++ ';' :: rest) := by
    simp [statement.toList_text]
  have hlook := look?_verb statement (separated_textOf statement.words rest)
  have hopening :
      (statement.verb.toList ++ (textOf statement.words ++
        ';' :: rest)).head?.any (· == ' ') = false := by
    rcases verb_cases statement with ⟨hverb, -⟩ | ⟨hverb, -⟩ <;>
      rw [hverb] <;> rfl
  have hending : statement.verbKind ≠ .ending := by
    rcases verb_cases statement with ⟨-, hkind⟩ | ⟨-, hkind⟩ <;>
      rw [hkind] <;> exact nofun
  -- the budget is the text itself, with a letter for each word at least
  obtain ⟨c, budget, hbudget, hlength⟩ : ∃ c budget, statement.verb.toList ++
      (textOf statement.words ++ ';' :: rest) =
      c :: budget ∧ statement.words.length < budget.length := by
    have hlength := length_le_length_textOf statement.words
    rcases verb_cases statement with ⟨hverb, -⟩ | ⟨hverb, -⟩ <;> rw [hverb] <;>
      exact ⟨_, _, rfl, by simp [List.length_append]; omega⟩
  have hstep := readWithin?_step [] rfl hopening hlook hending before c budget
  rw [readWithin?_textOf _ _ _ hlength] at hstep
  rw [htext, read?]
  simpa [afterVerb, Cursor.after, ← hbudget] using hstep

end Grammar.Piece

end ImportAtlas
