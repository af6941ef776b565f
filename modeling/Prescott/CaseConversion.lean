import Mathlib

namespace Prescott

/-!
# Names of columns and keys

Columns are named in snake case and the keys of results in camel case.  The
letters are those of ASCII.
-/

/-- `replace(/[-_][a-z]/g, (group) => group.slice(-1).toUpperCase())`. -/
def raiseLetters : List Char → List Char
  | separator :: letter :: rest =>
      if (separator = '-' ∨ separator = '_') ∧ letter.isLower = true then
        letter.toUpper :: raiseLetters rest
      else
        separator :: raiseLetters (letter :: rest)
  | text => text

/--
`toLowerCase` and the raising of letters; only the letters of ASCII are
followed, as column names have no others.
-/
def snakeCaseToCamelCase (str : String) : String :=
  String.ofList (raiseLetters (str.toList.map Char.toLower))

/-- `replace(/[A-Z]/g, (chr) => ...)` for one character. -/
def lowerLetter (chr : Char) : List Char :=
  if chr.isUpper then ['_', chr.toLower] else [chr]

/-- Every capital letter of ASCII becomes an underscore and the small letter. -/
def camelCaseToSnakeCase (str : String) : String :=
  String.ofList (str.toList.flatMap lowerLetter)

/-- The characters of column names. -/
def IsColumnChar (chr : Char) : Prop :=
  chr.isLower = true ∨ chr.isDigit = true ∨ chr = '_'

/-- A name over lower-case letters, digits and the underscore. -/
def IsColumnName (name : String) : Prop :=
  ∀ chr ∈ name.toList, IsColumnChar chr

/-- A name over letters and digits. -/
def IsKeyName (name : String) : Prop :=
  ∀ chr ∈ name.toList, chr.isAlphanum = true

theorem IsColumnChar.isUpper_eq_false
    {chr : Char}
    (column : IsColumnChar chr) :
    chr.isUpper = false := by
  rcases column with lower | digit | rfl
  · simpa using Char.not_isUpper_of_isLower lower
  · simp only [Char.isDigit, Char.isUpper, Bool.and_eq_true,
      decide_eq_true_eq, decide_eq_false_iff_not] at digit ⊢
    grind
  · rfl

theorem IsColumnChar.toLower_eq
    {chr : Char}
    (column : IsColumnChar chr) :
    chr.toLower = chr :=
  Char.toLower_eq_of_not_isUpper (by simp [column.isUpper_eq_false])

theorem lowerLetter_of_column
    {chr : Char}
    (column : IsColumnChar chr) :
    lowerLetter chr = [chr] := by
  simp [lowerLetter, column.isUpper_eq_false]

theorem lowerLetter_toUpper
    {letter : Char}
    (lower : letter.isLower = true) :
    lowerLetter letter.toUpper = ['_', letter] := by
  have unchanged : letter.toLower = letter :=
    Char.toLower_eq_of_not_isUpper (Char.not_isUpper_of_isLower lower)
  simp [lowerLetter, Char.isAlpha, lower, unchanged]

/-- A raised letter is written back with the underscore that it had. -/
theorem flatMap_lowerLetter_raiseLetters
    (text : List Char)
    (column : ∀ chr ∈ text, IsColumnChar chr) :
    (raiseLetters text).flatMap lowerLetter = text := by
  induction text using raiseLetters.induct with
  | case1 separator letter rest raises inductionHypothesis =>
      have underscore : separator = '_' := by
        rcases raises.1 with rfl | underscore
        · have dash := column '-' (by simp)
          simp [IsColumnChar] at dash
        · exact underscore
      have restColumn : ∀ chr ∈ rest, IsColumnChar chr :=
        fun chr member => column chr (by simp [member])
      rw [raiseLetters, if_pos raises, List.flatMap_cons,
        lowerLetter_toUpper raises.2, inductionHypothesis restColumn,
        underscore]
      rfl
  | case2 separator letter rest keeps inductionHypothesis =>
      have restColumn : ∀ chr ∈ letter :: rest, IsColumnChar chr :=
        fun chr member => column chr (List.mem_cons_of_mem separator member)
      rw [raiseLetters, if_neg keeps, List.flatMap_cons,
        lowerLetter_of_column (column separator (by simp)),
        inductionHypothesis restColumn]
      rfl
  | case3 text short =>
      cases text with
      | nil => rfl
      | cons chr rest =>
          cases rest with
          | nil =>
              simp [raiseLetters, lowerLetter_of_column (column chr (by simp))]
          | cons letter rest =>
              exact absurd rfl (short chr letter rest)

theorem camelCaseToSnakeCase_snakeCaseToCamelCase
    {column : String}
    (named : IsColumnName column) :
    camelCaseToSnakeCase (snakeCaseToCamelCase column) = column := by
  have lowered : column.toList.map Char.toLower = column.toList :=
    (List.map_congr_left fun chr member => (named chr member).toLower_eq).trans
      (List.map_id _)
  simp only [camelCaseToSnakeCase, snakeCaseToCamelCase,
    String.toList_ofList, lowered,
    flatMap_lowerLetter_raiseLetters column.toList named,
    String.ofList_toList]

/-- A character that separates no words stays as it is. -/
theorem raiseLetters_cons
    {chr : Char}
    (word : ¬ (chr = '-' ∨ chr = '_'))
    (rest : List Char) :
    raiseLetters (chr :: rest) = chr :: raiseLetters rest := by
  cases rest with
  | nil => rfl
  | cons letter rest => simp [raiseLetters, word]

/-- Each letter or digit of a key is found again in what is written for it. -/
theorem raiseLetters_flatMap_lowerLetter
    (key : List Char)
    (named : ∀ chr ∈ key, chr.isAlphanum = true) :
    raiseLetters ((key.flatMap lowerLetter).map Char.toLower) = key := by
  induction key with
  | nil => rfl
  | cons chr rest inductionHypothesis =>
      have restNamed : ∀ letter ∈ rest, letter.isAlphanum = true :=
        fun letter member => named letter (List.mem_cons_of_mem chr member)
      have restRead := inductionHypothesis restNamed
      have chrNamed := named chr (List.mem_cons_self ..)
      rw [List.flatMap_cons, List.map_append]
      by_cases upper : chr.isUpper = true
      · have raised : chr.toUpper = chr :=
          Char.toUpper_eq_of_not_isLower (Char.not_isLower_of_isUpper upper)
        simp [lowerLetter, upper, raiseLetters, Char.isAlpha, raised,
          restRead]
      · have word : ¬ (chr = '-' ∨ chr = '_') := by
          rintro (rfl | rfl) <;> simp at chrNamed
        have lowered : chr.toLower = chr :=
          Char.toLower_eq_of_not_isUpper upper
        simp only [lowerLetter, upper, Bool.false_eq_true, if_false,
          List.map_cons, List.map_nil, List.cons_append, List.nil_append,
          lowered, raiseLetters_cons word, restRead]

theorem snakeCaseToCamelCase_camelCaseToSnakeCase
    {key : String}
    (named : IsKeyName key) :
    snakeCaseToCamelCase (camelCaseToSnakeCase key) = key := by
  simp only [camelCaseToSnakeCase, snakeCaseToCamelCase,
    String.toList_ofList,
    raiseLetters_flatMap_lowerLetter key.toList named,
    String.ofList_toList]

/--
A result of the database.  A leaf is a primitive value, `null` or a `Date`; a
`Buffer` is no leaf but an object, with a field for each of its bytes.
-/
inductive ResultValue (Leaf : Type) where
  | leaf (value : Leaf)
  | array (items : List (ResultValue Leaf))
  | object (fields : List (String × ResultValue Leaf))

namespace ResultValue

variable {Leaf : Type}

/-- `{ ...result, [key]: value }` -/
def setField
    (result : List (String × ResultValue Leaf))
    (key : String)
    (value : ResultValue Leaf) :
    List (String × ResultValue Leaf) :=
  if ∃ field ∈ result, field.1 = key then
    result.map fun field => if field.1 = key then (key, value) else field
  else
    result ++ [(key, value)]

mutual

/-- The keys of all objects in camel case; leaves stay as they are. -/
def objectToCamelCase : ResultValue Leaf → ResultValue Leaf
  | .leaf value => .leaf value
  | .array items => .array (itemsToCamelCase items)
  | .object fields => .object (fieldsToCamelCase [] fields)

/-- `obj.map(objectToCamelCase)`. -/
def itemsToCamelCase : List (ResultValue Leaf) → List (ResultValue Leaf)
  | [] => []
  | item :: rest => objectToCamelCase item :: itemsToCamelCase rest

/-- The `reduce` over the keys of an object. -/
def fieldsToCamelCase (result : List (String × ResultValue Leaf)) :
    List (String × ResultValue Leaf) → List (String × ResultValue Leaf)
  | [] => result
  | (key, value) :: rest =>
      fieldsToCamelCase
        (setField result (snakeCaseToCamelCase key) (objectToCamelCase value)) rest

end

theorem itemsToCamelCase_eq_map (items : List (ResultValue Leaf)) :
    itemsToCamelCase items = items.map objectToCamelCase := by
  induction items with
  | nil => simp [itemsToCamelCase]
  | cons item rest inductionHypothesis =>
      simp [itemsToCamelCase, inductionHypothesis]

/-- A key that is new is put behind the others. -/
theorem setField_of_not_mem
    {result : List (String × ResultValue Leaf)}
    {key : String}
    (new : key ∉ result.map Prod.fst)
    (value : ResultValue Leaf) :
    setField result key value = result ++ [(key, value)] := by
  refine if_neg ?_
  rintro ⟨field, member, rfl⟩
  exact new (List.mem_map_of_mem member)

/-- Fields whose renamed keys are distinct are renamed in their order. -/
theorem fieldsToCamelCase_eq_append
    (fields result : List (String × ResultValue Leaf))
    (distinct :
      (result.map Prod.fst ++
        fields.map fun field => snakeCaseToCamelCase field.1).Nodup) :
    fieldsToCamelCase result fields =
      result ++ fields.map fun field =>
        (snakeCaseToCamelCase field.1, objectToCamelCase field.2) := by
  induction fields generalizing result with
  | nil => simp [fieldsToCamelCase]
  | cons field rest inductionHypothesis =>
      obtain ⟨key, value⟩ := field
      have new : snakeCaseToCamelCase key ∉ result.map Prod.fst := by
        intro member
        exact (List.nodup_append.mp distinct).2.2 _ member _
          (by simp) rfl
      rw [fieldsToCamelCase, setField_of_not_mem new,
        inductionHypothesis _ (by simpa using distinct)]
      simp

mutual

/-- The value with every key of its objects renamed. -/
def renameKeys (rename : String → String) : ResultValue Leaf → ResultValue Leaf
  | .leaf value => .leaf value
  | .array items => .array (renameItems rename items)
  | .object fields => .object (renameFields rename fields)

/-- Rename the keys in every item. -/
def renameItems (rename : String → String) :
    List (ResultValue Leaf) → List (ResultValue Leaf)
  | [] => []
  | item :: rest => renameKeys rename item :: renameItems rename rest

/-- Rename the keys of an object and of what its fields hold. -/
def renameFields (rename : String → String) :
    List (String × ResultValue Leaf) → List (String × ResultValue Leaf)
  | [] => []
  | (key, value) :: rest =>
      (rename key, renameKeys rename value) :: renameFields rename rest

end

theorem renameItems_eq_map
    (rename : String → String)
    (items : List (ResultValue Leaf)) :
    renameItems rename items = items.map (renameKeys rename) := by
  induction items with
  | nil => simp [renameItems]
  | cons item rest inductionHypothesis =>
      simp [renameItems, inductionHypothesis]

theorem renameFields_eq_map
    (rename : String → String)
    (fields : List (String × ResultValue Leaf)) :
    renameFields rename fields =
      fields.map fun field => (rename field.1, renameKeys rename field.2) := by
  induction fields with
  | nil => simp [renameFields]
  | cons field rest inductionHypothesis =>
      simp [renameFields, inductionHypothesis]

/-- Every object in the value has distinct keys, and each is such a key. -/
inductive HasKeys (IsKey : String → Prop) : ResultValue Leaf → Prop where
  | leaf (value : Leaf) : HasKeys IsKey (.leaf value)
  | array
      {items : List (ResultValue Leaf)}
      (each : ∀ item ∈ items, HasKeys IsKey item) :
      HasKeys IsKey (.array items)
  | object
      {fields : List (String × ResultValue Leaf)}
      (distinct : (fields.map Prod.fst).Nodup)
      (named : ∀ field ∈ fields, IsKey field.1)
      (each : ∀ field ∈ fields, HasKeys IsKey field.2) :
      HasKeys IsKey (.object fields)

/-- Column names that are distinct have distinct keys. -/
theorem nodup_map_snakeCaseToCamelCase
    {fields : List (String × ResultValue Leaf)}
    (distinct : (fields.map Prod.fst).Nodup)
    (named : ∀ field ∈ fields, IsColumnName field.1) :
    (fields.map fun field => snakeCaseToCamelCase field.1).Nodup := by
  have columns : (fields.map fun field =>
      camelCaseToSnakeCase (snakeCaseToCamelCase field.1)).Nodup := by
    rwa [List.map_congr_left fun field member =>
      camelCaseToSnakeCase_snakeCaseToCamelCase (named field member)]
  refine List.Nodup.of_map camelCaseToSnakeCase ?_
  rwa [List.map_map]

/-- Only the keys are changed, and no field replaces another one. -/
theorem objectToCamelCase_eq_renameKeys
    {value : ResultValue Leaf}
    (columns : value.HasKeys IsColumnName) :
    objectToCamelCase value = value.renameKeys snakeCaseToCamelCase := by
  induction columns with
  | leaf value => simp [objectToCamelCase, renameKeys]
  | array each inductionHypothesis =>
      rw [objectToCamelCase, renameKeys, itemsToCamelCase_eq_map,
        renameItems_eq_map, List.map_congr_left inductionHypothesis]
  | @object fields distinct named each inductionHypothesis =>
      have keysDistinct := nodup_map_snakeCaseToCamelCase distinct named
      have renamed : ∀ field ∈ fields,
          (snakeCaseToCamelCase field.1, objectToCamelCase field.2) =
            (snakeCaseToCamelCase field.1,
              field.2.renameKeys snakeCaseToCamelCase) := by
        intro field member
        rw [inductionHypothesis field member]
      rw [objectToCamelCase, renameKeys, renameFields_eq_map,
        fieldsToCamelCase_eq_append fields [] keysDistinct,
        List.nil_append, List.map_congr_left renamed]

/-- The keys of every object stay distinct when they are renamed. -/
theorem hasKeys_renameKeys
    {value : ResultValue Leaf}
    (columns : value.HasKeys IsColumnName) :
    (value.renameKeys snakeCaseToCamelCase).HasKeys fun key =>
      IsColumnName (camelCaseToSnakeCase key) := by
  induction columns with
  | leaf value =>
      rw [renameKeys]
      exact .leaf value
  | array each inductionHypothesis =>
      rw [renameKeys, renameItems_eq_map]
      exact .array (List.forall_mem_map.mpr inductionHypothesis)
  | @object fields distinct named each inductionHypothesis =>
      rw [renameKeys, renameFields_eq_map]
      refine .object ?_ (List.forall_mem_map.mpr ?_)
        (List.forall_mem_map.mpr inductionHypothesis)
      · rw [List.map_map]
        exact nodup_map_snakeCaseToCamelCase distinct named
      · intro field member
        rw [camelCaseToSnakeCase_snakeCaseToCamelCase (named field member)]
        exact named field member

/-- With the columns' names put back, the value is the one that was read. -/
theorem renameKeys_renameKeys
    {value : ResultValue Leaf}
    (columns : value.HasKeys IsColumnName) :
    (value.renameKeys snakeCaseToCamelCase).renameKeys camelCaseToSnakeCase =
      value := by
  induction columns with
  | leaf value => simp [renameKeys]
  | @array items each inductionHypothesis =>
      rw [renameKeys, renameKeys, renameItems_eq_map, renameItems_eq_map,
        List.map_map]
      exact congrArg ResultValue.array
        ((List.map_congr_left inductionHypothesis).trans (List.map_id items))
  | @object fields distinct named each inductionHypothesis =>
      have restored : ∀ field ∈ fields,
          (camelCaseToSnakeCase (snakeCaseToCamelCase field.1),
              (field.2.renameKeys snakeCaseToCamelCase).renameKeys
                camelCaseToSnakeCase) = field := by
        intro field member
        rw [camelCaseToSnakeCase_snakeCaseToCamelCase (named field member),
          inductionHypothesis field member]
      rw [renameKeys, renameKeys, renameFields_eq_map, renameFields_eq_map,
        List.map_map]
      exact congrArg ResultValue.object
        ((List.map_congr_left restored).trans (List.map_id fields))

end ResultValue

/-- The row that the database stores, under the names of `wrapIdentifier`. -/
def storedRow {Leaf : Type} (row : List (String × Leaf)) :
    List (String × ResultValue Leaf) :=
  row.map fun field => (camelCaseToSnakeCase field.1, .leaf field.2)

theorem snakeCaseToCamelCase_storedRow
    {Leaf : Type}
    {row : List (String × Leaf)}
    (named : ∀ field ∈ row, IsKeyName field.1) :
    (storedRow row).map (fun field => snakeCaseToCamelCase field.1) =
      row.map Prod.fst := by
  rw [storedRow, List.map_map]
  exact List.map_congr_left fun field member =>
    snakeCaseToCamelCase_camelCaseToSnakeCase (named field member)

/-- The keys of a row are those that it was inserted with. -/
theorem objectToCamelCase_storedRow
    {Leaf : Type}
    {row : List (String × Leaf)}
    (distinct : (row.map Prod.fst).Nodup)
    (named : ∀ field ∈ row, IsKeyName field.1) :
    ResultValue.objectToCamelCase (.object (storedRow row)) =
      .object (row.map fun field => (field.1, .leaf field.2)) := by
  have read := snakeCaseToCamelCase_storedRow named
  rw [ResultValue.objectToCamelCase,
    ResultValue.fieldsToCamelCase_eq_append (storedRow row) []
      (by simpa [read] using distinct),
    List.nil_append, storedRow, List.map_map]
  refine congrArg ResultValue.object (List.map_congr_left ?_)
  intro field member
  simp [snakeCaseToCamelCase_camelCaseToSnakeCase (named field member),
    ResultValue.objectToCamelCase]

/-- Names of columns and keys are carried over without loss. -/
theorem columnNaming_roundTrip {Leaf : Type} :
    (∀ column, IsColumnName column →
      camelCaseToSnakeCase (snakeCaseToCamelCase column) = column) ∧
    (∀ key, IsKeyName key →
      snakeCaseToCamelCase (camelCaseToSnakeCase key) = key) ∧
    (∀ value : ResultValue Leaf, value.HasKeys IsColumnName →
      value.objectToCamelCase = value.renameKeys snakeCaseToCamelCase ∧
        value.objectToCamelCase.HasKeys
          (fun key => IsColumnName (camelCaseToSnakeCase key)) ∧
        value.objectToCamelCase.renameKeys camelCaseToSnakeCase = value) ∧
    (∀ row : List (String × Leaf),
      (row.map Prod.fst).Nodup → (∀ field ∈ row, IsKeyName field.1) →
      ((storedRow row).map Prod.fst).Nodup ∧
        ResultValue.objectToCamelCase (.object (storedRow row)) =
          .object (row.map fun field => (field.1, .leaf field.2))) := by
  refine ⟨?_, ?_, ?_, ?_⟩
  · intro column named
    exact camelCaseToSnakeCase_snakeCaseToCamelCase named
  · intro key named
    exact snakeCaseToCamelCase_camelCaseToSnakeCase named
  · intro value columns
    rw [ResultValue.objectToCamelCase_eq_renameKeys columns]
    exact ⟨rfl, ResultValue.hasKeys_renameKeys columns,
      ResultValue.renameKeys_renameKeys columns⟩
  · intro row distinct named
    refine ⟨?_, objectToCamelCase_storedRow distinct named⟩
    refine List.Nodup.of_map snakeCaseToCamelCase ?_
    rw [List.map_map]
    exact (snakeCaseToCamelCase_storedRow named).symm ▸ distinct

theorem columnNaming_roundTrip_userId :
    ((storedRow [("userId", 5), ("label", 7)]).map Prod.fst).Nodup ∧
      ResultValue.objectToCamelCase
          (.object (storedRow [("userId", 5), ("label", 7)])) =
        .object [("userId", .leaf 5), ("label", .leaf 7)] :=
  (@columnNaming_roundTrip Nat).2.2.2 [("userId", 5), ("label", 7)]
    (by decide) (by simp [IsKeyName])

end Prescott
