import KernelLake.Library.Texts
import KernelLake.SourceCalls
import Mathlib.Data.List.TakeWhile

/-!
The scanner for source calls takes just the texts that are written calls.

Each reader of the scanner is right on the texts of its part of a call, whatever follows, and gives
nothing elsewhere. So preprocessing replaces the calls of the one cut of the text into calls and
single characters, and leaves the characters.
-/

namespace KernelLake.SourceCalls

open KernelLake.Library.Replacement

/-! ## Whitespace -/

theorem skipWhitespace_append {spaces : List Char} (blank : AllSpace spaces) (text : List Char) :
    skipWhitespace (spaces ++ text) = skipWhitespace text :=
  List.dropWhile_append_of_pos blank

theorem skipWhitespace_cons {character : Char} (outside : isSpace character = false) (text : List Char) :
    skipWhitespace (character :: text) = character :: text := by
  rw [skipWhitespace, List.dropWhile_cons_of_neg (by simp [outside])]

theorem exists_spaces (text : List Char) : ∃ spaces, AllSpace spaces ∧ text = spaces ++ skipWhitespace text :=
  ⟨text.takeWhile isSpace, fun _ member => List.mem_takeWhile_imp member, List.takeWhile_append_dropWhile.symm⟩

/-! ## Literals -/

theorem quotedContent_content {content : List Char} (isContent : Content content) (rest : List Char) :
    quotedContent (content ++ '\'' :: rest) = some (content, rest) := by
  induction isContent with
  | empty => rfl
  | plain notQuote notBackslash _ hypothesis =>
    rw [List.cons_append, quotedContent, hypothesis]
    · rfl
    · exact notQuote
    · exact fun same _ => notBackslash same
    · exact fun _ _ same _ => notBackslash same
  | escaped _ hypothesis =>
    rw [List.cons_append, List.cons_append, quotedContent, hypothesis]
    rfl

theorem content_of_quotedContent {text content rest : List Char}
    (parsed : quotedContent text = some (content, rest)) :
    Content content ∧ text = content ++ '\'' :: rest := by
  fun_induction quotedContent text generalizing content with
  | case1 => cases parsed
  | case2 text =>
    cases parsed
    exact ⟨.empty, rfl⟩
  | case3 => cases parsed
  | case4 escaped text hypothesis =>
    obtain ⟨⟨inner, after⟩, innerParsed, same⟩ := Option.map_eq_some_iff.mp parsed
    cases same
    obtain ⟨isContent, rfl⟩ := hypothesis innerParsed
    exact ⟨.escaped isContent, rfl⟩
  | case5 character text notQuote notLast notEscaped hypothesis =>
    obtain ⟨⟨inner, after⟩, innerParsed, same⟩ := Option.map_eq_some_iff.mp parsed
    cases same
    obtain ⟨isContent, rfl⟩ := hypothesis innerParsed
    refine ⟨.plain notQuote ?_ isContent, rfl⟩
    rintro rfl
    cases inner with
    | nil => exact notEscaped _ _ rfl rfl
    | cons next inner => exact notEscaped _ _ rfl rfl

theorem tryParseQuotedString_eq_some {text content rest : List Char} :
    tryParseQuotedString text = some (content, rest) ↔
      Content content ∧ text = '\'' :: (content ++ '\'' :: rest) := by
  constructor
  · intro parsed
    cases text with
    | nil => cases parsed
    | cons character text =>
      rw [tryParseQuotedString] at parsed
      split at parsed
      · rename_i isQuote
        obtain ⟨isContent, rfl⟩ := content_of_quotedContent parsed
        exact ⟨isContent, congrArg (· :: _) isQuote⟩
      · cases parsed
  · rintro ⟨isContent, rfl⟩
    rw [tryParseQuotedString, if_pos rfl]
    exact quotedContent_content isContent rest

/-! ## Argument lists -/

theorem arguments_head {paths : List (List Char)} {written : List Char} (isWritten : Arguments paths written) :
    ∃ tail, written = '\'' :: tail := by
  cases isWritten with
  | last => exact ⟨_, rfl⟩
  | more => exact ⟨_, rfl⟩

theorem skipWhitespace_arguments {paths : List (List Char)} {written : List Char}
    (isWritten : Arguments paths written) (rest : List Char) :
    skipWhitespace (written ++ rest) = written ++ rest := by
  obtain ⟨tail, rfl⟩ := arguments_head isWritten
  exact skipWhitespace_cons (by decide) _

theorem length_arguments {paths : List (List Char)} {written : List Char}
    (isWritten : Arguments paths written) : paths.length ≤ written.length := by
  induction isWritten with
  | last => simp
  | more _ _ _ _ hypothesis =>
    simp only [List.length_cons, List.length_append]
    omega

theorem parsePaths_arguments {paths : List (List Char)} {written : List Char}
    (isWritten : Arguments paths written) (rest : List Char) {fuel : Nat} (enough : paths.length ≤ fuel) :
    parsePaths fuel (written ++ rest) = some (paths, ')' :: rest) := by
  induction isWritten generalizing fuel with
  | @last path spaces content blank =>
    obtain ⟨fuel, rfl⟩ : ∃ less, fuel = less + 1 := ⟨fuel - 1, by simp at enough; omega⟩
    have literal : tryParseQuotedString ('\'' :: (path ++ '\'' :: (spaces ++ [')'])) ++ rest) =
        some (path, spaces ++ ')' :: rest) :=
      tryParseQuotedString_eq_some.mpr ⟨content, by simp⟩
    rw [parsePaths, literal]
    simp only [skipWhitespace_append blank, skipWhitespace_cons (by decide : isSpace ')' = false)]
    exact if_neg (by decide)
  | @more path spaces spaces' others paths content blank blank' isArguments hypothesis =>
    rw [List.length_cons] at enough
    obtain ⟨fuel, rfl⟩ : ∃ less, fuel = less + 1 := ⟨fuel - 1, by omega⟩
    have literal : tryParseQuotedString
        ('\'' :: (path ++ '\'' :: (spaces ++ ',' :: (spaces' ++ others))) ++ rest) =
        some (path, spaces ++ ',' :: (spaces' ++ (others ++ rest))) :=
      tryParseQuotedString_eq_some.mpr ⟨content, by simp⟩
    rw [parsePaths, literal]
    simp only [skipWhitespace_append blank, skipWhitespace_cons (by decide : isSpace ',' = false), if_true,
      skipWhitespace_append blank', skipWhitespace_arguments isArguments,
      hypothesis (Nat.le_of_succ_le_succ enough)]
    rfl

theorem arguments_of_parsePaths {fuel : Nat} {text rest : List Char} {paths : List (List Char)}
    (parsed : parsePaths fuel text = some (paths, ')' :: rest)) :
    ∃ written, Arguments paths written ∧ text = written ++ rest := by
  induction fuel generalizing text paths with
  | zero => cases parsed
  | succ fuel hypothesis =>
    rw [parsePaths] at parsed
    cases literal : tryParseQuotedString text with
    | none => simp [literal] at parsed
    | some result =>
      obtain ⟨path, after⟩ := result
      obtain ⟨content, rfl⟩ := tryParseQuotedString_eq_some.mp literal
      obtain ⟨spaces, blank, split⟩ := exists_spaces after
      simp only [literal] at parsed
      cases skipped : skipWhitespace after with
      | nil => simp [skipped] at parsed
      | cons next others =>
        simp only [skipped] at parsed
        rw [skipped] at split
        subst split
        by_cases comma : next = ','
        · subst comma
          rw [if_pos rfl] at parsed
          obtain ⟨⟨inner, end'⟩, innerParsed, same⟩ := Option.map_eq_some_iff.mp parsed
          cases same
          obtain ⟨written, isWritten, isText⟩ := hypothesis innerParsed
          obtain ⟨spaces', blank', split'⟩ := exists_spaces others
          rw [isText] at split'
          subst split'
          exact ⟨_, .more content blank blank' isWritten, by simp⟩
        · rw [if_neg comma] at parsed
          cases parsed
          exact ⟨_, .last content blank, by simp⟩

/-! ## Calls -/

theorem tryParseReadParquetArgs_eq_some {text rest : List Char} {paths : List (List Char)} :
    tryParseReadParquetArgs text = some (paths, rest) ↔
      ∃ spaces spaces' written, AllSpace spaces ∧ AllSpace spaces' ∧ Arguments paths written ∧
        text = spaces ++ '(' :: (spaces' ++ (written ++ rest)) := by
  constructor
  · intro parsed
    obtain ⟨spaces, blank, split⟩ := exists_spaces text
    unfold tryParseReadParquetArgs at parsed
    cases skipped : skipWhitespace text with
    | nil => simp [skipped] at parsed
    | cons opening others =>
      simp only [skipped] at parsed
      by_cases isOpening : opening = '('
      · rw [if_pos isOpening] at parsed
        obtain ⟨spaces', blank', split'⟩ := exists_spaces others
        cases read : parsePaths others.length (skipWhitespace others) with
        | none => simp [read] at parsed
        | some result =>
          obtain ⟨inner, after⟩ := result
          cases after with
          | nil => simp [read] at parsed
          | cons closing after =>
            simp only [read] at parsed
            by_cases isClosing : closing = ')'
            · rw [if_pos isClosing] at parsed
              cases parsed
              subst isClosing
              obtain ⟨written, isWritten, isText⟩ := arguments_of_parsePaths read
              refine ⟨spaces, spaces', written, blank, blank', isWritten, ?_⟩
              rw [split, skipped, isOpening, ← isText, ← split']
            · rw [if_neg isClosing] at parsed
              cases parsed
      · rw [if_neg isOpening] at parsed
        cases parsed
  · rintro ⟨spaces, spaces', written, blank, blank', isWritten, rfl⟩
    have enough : paths.length ≤ (spaces' ++ (written ++ rest)).length := by
      have := length_arguments isWritten
      simp only [List.length_append]
      omega
    unfold tryParseReadParquetArgs
    simp only [skipWhitespace_append blank, skipWhitespace_cons (by decide : isSpace '(' = false), if_true,
      skipWhitespace_append blank', skipWhitespace_arguments isWritten, parsePaths_arguments isWritten rest enough]

theorem startsWithCi_iff {text lower : List Char} :
    startsWithCi text lower = true ↔ ∃ name rest, text = name ++ rest ∧ name.map Char.toLower = lower := by
  induction lower generalizing text with
  | nil =>
    rw [startsWithCi.eq_def]
    simp
  | cons first lower hypothesis =>
    cases text with
    | nil => simp [startsWithCi]
    | cons character text =>
      rw [startsWithCi, Bool.and_eq_true, beq_iff_eq, hypothesis]
      constructor
      · rintro ⟨same, name, rest, rfl, rfl⟩
        exact ⟨character :: name, rest, rfl, by rw [List.map_cons, same]⟩
      · rintro ⟨name, rest, isText, isLower⟩
        obtain ⟨head, tail, rfl, same, others⟩ := List.map_eq_cons_iff.mp isLower
        cases isText
        exact ⟨same, tail, rest, rfl, others⟩

/-- No name of a function starts with another. -/
theorem function_unique {text : List Char} {first second : SourceFunction}
    (isFirst : startsWithCi text first.name = true) (isSecond : startsWithCi text second.name = true) :
    first = second := by
  have lowered {function : SourceFunction} (starts : startsWithCi text function.name = true) :
      function.name <+: text.map Char.toLower := by
    obtain ⟨name, rest, rfl, isName⟩ := startsWithCi_iff.mp starts
    rw [List.map_append, isName]
    exact List.prefix_append _ _
  rcases List.prefix_or_prefix_of_prefix (lowered isFirst) (lowered isSecond) with within | within
  · revert within
    cases first <;> cases second <;> decide
  · revert within
    cases first <;> cases second <;> decide

theorem functionAt_eq_some {text : List Char} {function : SourceFunction} :
    functionAt text = some function ↔ startsWithCi text function.name = true := by
  have holds {other : SourceFunction} (found : functionAt text = some other) :
      startsWithCi text other.name = true := by
    have passes := List.find?_some found
    exact passes
  constructor
  · exact holds
  · intro starts
    cases found : functionAt text with
    | none =>
      have absent := List.find?_eq_none.mp found function (by cases function <;> simp)
      exact absurd starts absent
    | some other => rw [function_unique (holds found) starts]

theorem recognises_sourceCallAt : Recognises Writes sourceCallAt where
  found := by
    intro text rest call
    constructor
    · intro found
      unfold sourceCallAt at found
      cases isFunction : functionAt text with
      | none => simp [isFunction] at found
      | some function =>
        simp only [isFunction] at found
        obtain ⟨name, after, rfl, isName⟩ := startsWithCi_iff.mp (functionAt_eq_some.mp isFunction)
        have length : function.name.length = name.length := by rw [← isName, List.length_map]
        rw [length, List.drop_left] at found
        cases parsed : tryParseReadParquetArgs after with
        | none => simp [parsed] at found
        | some result =>
          obtain ⟨arguments, afterCall⟩ := result
          obtain ⟨spaces, spaces', written, blank, blank', isWritten, rfl⟩ :=
            tryParseReadParquetArgs_eq_some.mp parsed
          simp only [parsed] at found
          by_cases tooMany : function ≠ .parquet ∧ arguments.length ≠ 1
          · rw [if_pos tooMany] at found
            cases found
          · rw [if_neg tooMany] at found
            cases found
            have single : function = .parquet ∨ arguments.length = 1 := by
              by_contra neither
              exact tooMany (not_or.mp neither)
            exact ⟨_, ⟨name, spaces, spaces', written, rfl, isName, blank, blank', isWritten, single⟩, by simp⟩
    · rintro ⟨_, ⟨name, spaces, spaces', written, rfl, isName, blank, blank', isWritten, single⟩, rfl⟩
      have starts : functionAt (name ++ (spaces ++ '(' :: (spaces' ++ written)) ++ rest) = some call.function := by
        apply functionAt_eq_some.mpr
        exact startsWithCi_iff.mpr ⟨name, _, List.append_assoc .., isName⟩
      have length : call.function.name.length = name.length := by rw [← isName, List.length_map]
      have parsed : tryParseReadParquetArgs (spaces ++ '(' :: (spaces' ++ written) ++ rest) =
          some (call.arguments, rest) :=
        tryParseReadParquetArgs_eq_some.mpr ⟨spaces, spaces', written, blank, blank', isWritten, by simp⟩
      have few : ¬ (call.function ≠ .parquet ∧ call.arguments.length ≠ 1) := by
        rintro ⟨notParquet, many⟩
        exact single.elim notParquet many
      unfold sourceCallAt
      rw [starts]
      simp only
      rw [length, List.append_assoc, List.drop_left, parsed]
      exact if_neg few
  nonempty := by
    rintro call written ⟨name, spaces, spaces', arguments, rfl, _⟩
    simp

/-! ## Preprocessing -/

theorem addPieces {pieces : List (Piece Char SourceCall)} (done : Preprocessed) :
    pieces.foldl (onPiece Preprocessed.addCharacter Preprocessed.addCall) done =
      ⟨done.sql ++ rewritten done.sources.length pieces,
        done.sources ++ (phrases pieces).mapIdx
          (fun index call => ⟨placeholderName (done.sources.length + index), call.paths⟩)⟩ := by
  induction pieces generalizing done with
  | nil => simp [rewritten, phrases]
  | cons piece pieces hypothesis =>
    rw [List.foldl_cons, hypothesis]
    cases piece with
    | letter character => simp [onPiece, Preprocessed.addCharacter, rewritten]
    | phrase call written =>
      simp [onPiece, Preprocessed.addCall, rewritten, List.mapIdx_cons, Nat.add_comm, Nat.add_left_comm]

/-- Every text has one cut into calls and single characters, and preprocessing replaces its calls. -/
theorem preprocess_cut (sql : List Char) :
    ∃ pieces, Cut Writes sql pieces ∧ preprocessFromReadParquet sql = replaced pieces := by
  obtain ⟨pieces, cut, runs⟩ := exists_cut_runOver recognises_sourceCallAt Preprocessed.addCharacter
    Preprocessed.addCall sql.length sql (le_refl _)
  refine ⟨pieces, cut, ?_⟩
  unfold preprocessFromReadParquet replaced
  rw [runs, addPieces]
  simp [sourcesOf]

end KernelLake.SourceCalls
