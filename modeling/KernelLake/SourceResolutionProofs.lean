import KernelLake.Library.Texts
import KernelLake.SourceCallProofs
import KernelLake.SourceResolution
import Mathlib.Data.List.Nodup

/-!
Every placeholder of a parsed query goes back to its own call, once.

Each name that a conversion takes back uses up one source. A conversion that ends with all marks set
has used up every source, so the names of the statement are the placeholders in some order.
-/

namespace KernelLake.SourceResolution

open KernelLake.Library KernelLake.Library.Replacement KernelLake.Library.Results KernelLake.SourceCalls

theorem unsupported_ne_ok {α : Type} {what : String} {result : α} : unsupported what ≠ .ok result := by
  intro same
  cases same

/-- The placeholders that are not consumed yet. -/
def unused : List PlaceholderSource → List Bool → List String
  | source :: sources, used :: consumed =>
    if used then unused sources consumed else source.placeholder :: unused sources consumed
  | _, _ => []

theorem unused_initial (sources : List PlaceholderSource) :
    unused sources (List.replicate sources.length false) = sources.map PlaceholderSource.placeholder := by
  induction sources with
  | nil => rfl
  | cons source sources hypothesis =>
    rw [List.length_cons, List.replicate_succ, unused, hypothesis]
    rfl

theorem unused_consumed {sources : List PlaceholderSource} {consumed : List Bool}
    (all : consumed.all id = true) : unused sources consumed = [] := by
  induction sources generalizing consumed with
  | nil => rfl
  | cons source sources hypothesis =>
    cases consumed with
    | nil => rfl
    | cons used consumed =>
      rw [List.all_cons, Bool.and_eq_true] at all
      obtain ⟨isUsed, others⟩ := all
      cases used with
      | false => cases isUsed
      | true => exact hypothesis others

theorem pathsOf_cons (source : PlaceholderSource) (sources : List PlaceholderSource) (placeholder : String) :
    pathsOf (source :: sources) placeholder =
      if source.placeholder = placeholder then source.paths else pathsOf sources placeholder := by
  unfold pathsOf
  rw [List.find?_cons]
  by_cases same : source.placeholder = placeholder
  · simp [same]
  · rw [beq_false_of_ne same, if_neg same]

/-- A name that is taken back has the paths of its source, and uses it up. -/
theorem findAndConsumeSource_spec {placeholder : String} {sources : List PlaceholderSource}
    {consumed : List Bool} {found : PlaceholderSource × List Bool}
    (ran : findAndConsumeSource placeholder sources consumed = .ok found) :
    found.1.paths = pathsOf sources placeholder ∧
      (unused sources consumed).Perm (placeholder :: unused sources found.2) := by
  induction sources generalizing consumed found with
  | nil => exact absurd ran unsupported_ne_ok
  | cons source sources hypothesis =>
    cases consumed with
    | nil => exact absurd ran unsupported_ne_ok
    | cons used consumed =>
      rw [findAndConsumeSource] at ran
      by_cases same : source.placeholder = placeholder
      · rw [if_neg (not_not.mpr same)] at ran
        cases used with
        | true => exact absurd ran unsupported_ne_ok
        | false =>
          cases ran
          rw [pathsOf_cons, if_pos same]
          exact ⟨rfl, .of_eq (congrArg (· :: _) same)⟩
      · rw [if_pos same] at ran
        obtain ⟨later, laterRan, isFound⟩ := bind_eq_ok.mp ran
        cases isFound
        obtain ⟨paths, perm⟩ := hypothesis laterRan
        rw [pathsOf_cons, if_neg same]
        refine ⟨paths, ?_⟩
        cases used with
        | true => exact perm
        | false => exact (perm.cons _).trans (.swap ..)

/-- From one set of marks to another, just these names are used up. -/
def UsesUp (sources : List PlaceholderSource) (names : List String) (before after : List Bool) : Prop :=
  (unused sources before).Perm (names ++ unused sources after)

section Conversion

variable {sources : List PlaceholderSource}

theorem usesUp_nil (consumed : List Bool) : UsesUp sources [] consumed consumed :=
  .refl _

theorem UsesUp.append {first second : List String} {before middle after : List Bool}
    (uses : UsesUp sources first before middle) (usesMore : UsesUp sources second middle after) :
    UsesUp sources (first ++ second) before after := by
  unfold UsesUp at uses usesMore ⊢
  rw [List.append_assoc]
  exact uses.trans (usesMore.append_left first)

theorem convertJoinSource_spec {table : TableRef String} {consumed : List Bool}
    {converted : TableRef Paths × List Bool} (ran : convertJoinSource sources consumed table = .ok converted) :
    converted.1 = table.mapSource (pathsOf sources) ∧ UsesUp sources table.sources consumed converted.2 := by
  cases table with
  | tableName name tableAlias =>
    rw [convertJoinSource] at ran
    split at ran
    · exact absurd ran unsupported_ne_ok
    · obtain ⟨found, foundRan, isConverted⟩ := bind_eq_ok.mp ran
      cases isConverted
      obtain ⟨paths, perm⟩ := findAndConsumeSource_spec foundRan
      rw [TableRef.mapSource, paths]
      exact ⟨rfl, perm⟩
  | missing | join | select | other => exact absurd ran unsupported_ne_ok

mutual

/-- A converted table has the paths of its own sources, and uses them up. -/
theorem convertTableRef_spec : (table : TableRef String) → (joinSide : Bool) → (consumed : List Bool) →
    (converted : TableRef Paths × List Bool) →
    convertTableRef sources joinSide table consumed = .ok converted →
    converted.1 = table.mapSource (pathsOf sources) ∧ UsesUp sources table.sources consumed converted.2
  | .missing => by
    intro joinSide consumed converted ran
    exact absurd ran unsupported_ne_ok
  | .other => by
    intro joinSide consumed converted ran
    exact absurd ran unsupported_ne_ok
  | .tableName name tableAlias => by
    intro joinSide consumed converted ran
    rw [convertTableRef] at ran
    split at ran
    · exact convertJoinSource_spec ran
    · obtain ⟨found, foundRan, isConverted⟩ := bind_eq_ok.mp ran
      cases isConverted
      obtain ⟨paths, perm⟩ := findAndConsumeSource_spec foundRan
      rw [TableRef.mapSource, paths]
      exact ⟨rfl, perm⟩
  | .join type left right condition => by
    intro joinSide consumed converted ran
    rw [convertTableRef] at ran
    split at ran
    · exact absurd ran unsupported_ne_ok
    · obtain ⟨_, _, ran⟩ := bind_eq_ok.mp ran
      split at ran
      · exact absurd ran unsupported_ne_ok
      · obtain ⟨first, firstRan, ran⟩ := bind_eq_ok.mp ran
        obtain ⟨second, secondRan, ran⟩ := bind_eq_ok.mp ran
        obtain ⟨on, onRan, isConverted⟩ := bind_eq_ok.mp ran
        cases isConverted
        obtain ⟨isFirst, usesFirst⟩ := convertTableRef_spec left _ _ _ firstRan
        obtain ⟨isSecond, usesSecond⟩ := convertJoinSource_spec secondRan
        obtain ⟨isOn, usesOn⟩ := convertExpr_spec condition _ _ onRan
        rw [TableRef.mapSource, isFirst, isSecond, isOn]
        exact ⟨rfl, (usesFirst.append usesSecond).append usesOn⟩
  | .select statement tableAlias => by
    intro joinSide consumed converted ran
    rw [convertTableRef] at ran
    split at ran
    · exact absurd ran unsupported_ne_ok
    · split at ran
      · exact absurd ran unsupported_ne_ok
      · obtain ⟨inner, innerRan, isConverted⟩ := bind_eq_ok.mp ran
        cases isConverted
        obtain ⟨isInner, uses⟩ := convertSelectStatement_spec statement _ _ innerRan
        rw [TableRef.mapSource, isInner]
        exact ⟨rfl, uses⟩

theorem convertExpr_spec : (expr : HsqlExpr String) → (consumed : List Bool) →
    (converted : HsqlExpr Paths × List Bool) → convertExpr sources expr consumed = .ok converted →
    converted.1 = expr.mapSource (pathsOf sources) ∧ UsesUp sources expr.sources consumed converted.2
  | .missing => by
    intro consumed converted ran
    exact absurd ran unsupported_ne_ok
  | .converted => by
    intro consumed converted ran
    cases ran
    exact ⟨rfl, usesUp_nil _⟩
  | .rejected message => by
    intro consumed converted ran
    cases ran
  | .subquery statement rest => by
    intro consumed converted ran
    rw [convertExpr] at ran
    obtain ⟨inner, innerRan, ran⟩ := bind_eq_ok.mp ran
    obtain ⟨others, othersRan, isConverted⟩ := bind_eq_ok.mp ran
    cases isConverted
    obtain ⟨isInner, usesInner⟩ := convertSelectStatement_spec statement _ _ innerRan
    obtain ⟨isOthers, usesOthers⟩ := convertExpr_spec rest _ _ othersRan
    rw [HsqlExpr.mapSource, isInner, isOthers]
    exact ⟨rfl, usesInner.append usesOthers⟩

theorem convertSelectStatement_spec : (statement : SelectStatement String) → (consumed : List Bool) →
    (converted : SelectStatement Paths × List Bool) →
    convertSelectStatement sources statement consumed = .ok converted →
    converted.1 = statement.mapSource (pathsOf sources) ∧
      UsesUp sources statement.sources consumed converted.2
  | .select selectDistinct setOperations withDescriptions fromTable selectList clauses rejectedLimit => by
    intro consumed converted ran
    rw [convertSelectStatement] at ran
    split at ran
    · exact absurd ran unsupported_ne_ok
    · split at ran
      · exact absurd ran unsupported_ne_ok
      · split at ran
        · exact absurd ran unsupported_ne_ok
        · obtain ⟨table, tableRan, ran⟩ := bind_eq_ok.mp ran
          split at ran
          · cases ran
          · obtain ⟨items, itemsRan, ran⟩ := bind_eq_ok.mp ran
            obtain ⟨others, othersRan, ran⟩ := bind_eq_ok.mp ran
            cases rejectedLimit with
            | some message => cases ran
            | none =>
              cases ran
              obtain ⟨isTable, usesTable⟩ := convertTableRef_spec fromTable _ _ _ tableRan
              obtain ⟨isItems, usesItems⟩ := convertExpr_spec selectList _ _ itemsRan
              obtain ⟨isOthers, usesOthers⟩ := convertExpr_spec clauses _ _ othersRan
              rw [SelectStatement.mapSource, isTable, isItems, isOthers]
              exact ⟨rfl, (usesTable.append usesItems).append usesOthers⟩

end

end Conversion

/-! ## Parsing -/

theorem placeholderName_injective {first second : Nat} (same : placeholderName first = placeholderName second) :
    first = second :=
  Texts.repr_inj.mp ((String.append_right_inj _).mp same)

theorem placeholders_sourcesOf (calls : List SourceCall) :
    (sourcesOf calls).map PlaceholderSource.placeholder = (List.range calls.length).map placeholderName := by
  apply List.ext_getElem
  · simp [sourcesOf]
  · intro index _ _
    simp [sourcesOf]

theorem nodup_placeholders (calls : List SourceCall) :
    ((sourcesOf calls).map PlaceholderSource.placeholder).Nodup := by
  rw [placeholders_sourcesOf]
  exact List.Nodup.map (fun _ _ same => placeholderName_injective same) List.nodup_range

/-- A placeholder stands for the paths of its own call. -/
theorem pathsOf_placeholderName {calls : List SourceCall} {index : Nat} {call : SourceCall}
    (isCall : calls[index]? = some call) : pathsOf (sourcesOf calls) (placeholderName index) = call.paths := by
  have within : index < calls.length := (List.getElem?_eq_some_iff.mp isCall).1
  have member : (⟨placeholderName index, call.paths⟩ : PlaceholderSource) ∈ sourcesOf calls := by
    refine List.mem_mapIdx.mpr ⟨index, within, ?_⟩
    rw [(List.getElem?_eq_some_iff.mp isCall).2]
  have found : ∃ source, (sourcesOf calls).find? (fun source => source.placeholder == placeholderName index) =
      some source := by
    apply Option.isSome_iff_exists.mp
    exact List.find?_isSome.mpr ⟨_, member, by simp⟩
  obtain ⟨source, isFound⟩ := found
  have named : source.placeholder = placeholderName index := by simpa using List.find?_some isFound
  have same := List.inj_on_of_nodup_map (nodup_placeholders calls) (List.mem_of_find?_eq_some isFound) member named
  unfold pathsOf
  rw [isFound, same]
  rfl

theorem theStatement_eq_ok {parsed : Except HsqlError (List HsqlStatement)} {statement : SelectStatement String} :
    theStatement parsed = .ok statement ↔ parsed = .ok [.select statement] := by
  constructor
  · intro ran
    unfold theStatement at ran
    split at ran
    · cases ran
    · cases ran
      rfl
    · cases ran
    · cases ran
  · rintro rfl
    rfl

/-- The FROM and JOIN names of a parsed query are the placeholders of its calls in some order, and the
parsed query has the paths of the call in place of each. -/
theorem parseSql_sources {hsql : HsqlParser} {sql : List Char} {parsed : SelectStatement Paths}
    (ran : parseSql hsql sql = .ok parsed) {pieces : List (Piece Char SourceCall)}
    (replaces : preprocessFromReadParquet sql = replaced pieces) :
    ∃ statement, hsql (rewritten 0 pieces) = .ok [.select statement] ∧
      parsed = statement.mapSource (pathsOf (sourcesOf (phrases pieces))) ∧
      statement.sources.Perm ((List.range (phrases pieces).length).map placeholderName) := by
  obtain ⟨_, _, afterLimits⟩ := bind_eq_ok.mp ran
  obtain ⟨preprocessed, preprocessRan, afterPreprocess⟩ := bind_eq_ok.mp afterLimits
  obtain ⟨statement, statementRan, afterParse⟩ := bind_eq_ok.mp afterPreprocess
  obtain ⟨converted, convertedRan, ended⟩ := bind_eq_ok.mp afterParse
  have isPreprocessed : preprocessed = ⟨rewritten 0 pieces, sourcesOf (phrases pieces)⟩ := by
    rw [replaces] at preprocessRan
    simp only [replaced] at preprocessRan
    split at preprocessRan
    · cases preprocessRan
    · split at preprocessRan
      · cases preprocessRan
      · cases preprocessRan
        rfl
  subst isPreprocessed
  refine ⟨statement, theStatement_eq_ok.mp statementRan, ?_⟩
  by_cases all : converted.2.all id = true
  · rw [if_pos all] at ended
    cases ended
    obtain ⟨isConverted, uses⟩ := convertSelectStatement_spec statement _ _ convertedRan
    refine ⟨isConverted, ?_⟩
    unfold UsesUp at uses
    rw [unused_initial, unused_consumed all, List.append_nil, placeholders_sourcesOf] at uses
    exact uses.symm
  · rw [if_neg all] at ended
    exact absurd ended unsupported_ne_ok

/-- Source calls are replaced wherever they stand, and nothing else is changed; what is parsed in the
end takes every placeholder back to its own call, once. -/
theorem sources_resolved (hsql : HsqlParser) (sql : List Char) :
    (∃! pieces, Cut Writes sql pieces) ∧ ∀ pieces, Cut Writes sql pieces →
      textOf pieces = sql ∧ preprocessFromReadParquet sql = replaced pieces ∧
      ((sourcesOf (phrases pieces)).map PlaceholderSource.placeholder).Nodup ∧
      ∀ parsed, parseSql hsql sql = .ok parsed →
        ∃ statement, hsql (rewritten 0 pieces) = .ok [.select statement] ∧
          statement.sources.Perm ((List.range (phrases pieces).length).map placeholderName) ∧
          parsed = statement.mapSource (pathsOf (sourcesOf (phrases pieces))) ∧
          ∀ index call, (phrases pieces)[index]? = some call →
            pathsOf (sourcesOf (phrases pieces)) (placeholderName index) = call.paths := by
  obtain ⟨pieces, cut, replaces⟩ := preprocess_cut sql
  have unique : ∀ pieces', Cut Writes sql pieces' → pieces' = pieces :=
    fun _ cut' => cut_unique recognises_sourceCallAt cut' cut
  refine ⟨⟨pieces, cut, unique⟩, ?_⟩
  intro pieces' cut'
  rw [unique pieces' cut']
  refine ⟨textOf_cut cut, replaces, nodup_placeholders _, ?_⟩
  intro parsed ran
  obtain ⟨statement, isStatement, isParsed, perm⟩ := parseSql_sources ran replaces
  exact ⟨statement, isStatement, perm, isParsed, fun index call isCall => pathsOf_placeholderName isCall⟩

/-! ## A call inside a quoted identifier -/

/-- Letters at the front that start no call stay as they are. -/
theorem cut_letters {letters rest : List Char} {pieces : List (Piece Char SourceCall)}
    (stays : ∀ index < letters.length, sourceCallAt (letters.drop index ++ rest) = none)
    (cut : Cut Writes rest pieces) : Cut Writes (letters ++ rest) (letters.map .letter ++ pieces) := by
  induction letters with
  | nil => exact cut
  | cons letter letters hypothesis =>
    have first := stays 0 (Nat.zero_lt_succ _)
    refine .letter (recognises_sourceCallAt.stays_iff.mp first) (hypothesis ?_)
    intro index within
    exact stays (index + 1) (Nat.succ_lt_succ within)

theorem writes_of_sourceCallAt {text : List Char} {call : SourceCall}
    (found : sourceCallAt text = some (call, [])) : Writes call text := by
  obtain ⟨written, isWritten, isText⟩ := recognises_sourceCallAt.found.mp found
  rw [List.append_nil] at isText
  exact isText ▸ isWritten

def quotedIdentifierQuery : List Char :=
  "SELECT a AS \"read_parquet('y')\" FROM read_parquet('x')".toList

/-- The statement of the rewritten query: its one FROM name is the second placeholder. -/
def quotedIdentifierParser : HsqlParser := fun _ =>
  .ok [.select (.select false false false (.tableName (placeholderName 1) none) .converted .converted none)]

theorem cut_quotedIdentifier :
    Cut Writes quotedIdentifierQuery
      ("SELECT a AS \"".toList.map .letter ++
        .phrase ⟨.parquet, ["y".toList]⟩ "read_parquet('y')".toList ::
          ("\" FROM ".toList.map .letter ++
            [.phrase ⟨.parquet, ["x".toList]⟩ "read_parquet('x')".toList])) := by
  have lastStays : ∀ index < "\" FROM ".toList.length,
      sourceCallAt ("\" FROM ".toList.drop index ++ "read_parquet('x')".toList) = none := by decide
  have firstStays : ∀ index < "SELECT a AS \"".toList.length,
      sourceCallAt ("SELECT a AS \"".toList.drop index ++
        ("read_parquet('y')".toList ++ ("\" FROM ".toList ++ "read_parquet('x')".toList))) = none := by decide
  have isFirst : Writes ⟨.parquet, ["y".toList]⟩ "read_parquet('y')".toList := writes_of_sourceCallAt (by decide)
  have isLast : Writes ⟨.parquet, ["x".toList]⟩ "read_parquet('x')".toList := writes_of_sourceCallAt (by decide)
  have last := Cut.phrase isLast .done
  rw [List.append_nil] at last
  exact cut_letters firstStays (.phrase isFirst (cut_letters lastStays last))

/-- The call in the name of a column is replaced, and the query is refused for it. -/
theorem replaces_quoted_identifier :
    ¬ ReplacesOutsideQuotes quotedIdentifierQuery ∧
      preprocessFromReadParquet quotedIdentifierQuery =
        .ok ⟨"SELECT a AS \"kernellake_parquet_source_0\" FROM kernellake_parquet_source_1".toList,
          [⟨"kernellake_parquet_source_0", ["y".toList]⟩, ⟨"kernellake_parquet_source_1", ["x".toList]⟩]⟩ ∧
      parseSql quotedIdentifierParser quotedIdentifierQuery = unsupported unreferencedMessage := by
  refine ⟨?_, rfl, rfl⟩
  intro outside
  have region := outside _ _ _ _ cut_quotedIdentifier
  revert region
  decide

end KernelLake.SourceResolution
