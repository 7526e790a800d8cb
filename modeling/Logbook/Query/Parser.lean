import Logbook.Query.Cursor
import Logbook.Query.Pipe

set_option autoImplicit false

/-! # The query language

A query is a filter followed by pipes, each behind a bar. Filters are joined by `or`, by `and` or by
nothing, which binds more strongly, and negated by `not` or an exclamation mark; a field name and a
colon before a filter or a group of filters says which field it is about.

    query := [or] ('|' pipe)*
    or    := and ('or' and)*
    and   := unary (['and'] unary)*
    unary := ('not' | '!') unary | '(' or ')' | term
    term  := quoted | word | word '*' | field ':' value -/

namespace Logbook

open QueryReader

/-! ## Leaves of filters -/

namespace QueryReader

/-- The filter for a word: a star alone asks for any value, a star at the end for a beginning. -/
def wordFilter (field : String) (word : String) : Filter :=
  match word.toList.reverse with
  | '*' :: front => .startsWith field (String.ofList front.reverse)
  | _ => .phrase field word

/-- Reads a pattern behind its operator; `make` builds it from the text. -/
def pattern (make : String → Except Regex.Error Pattern) : QueryReader Pattern := do
  let pos := (← get).pos
  let source ← value false
  match make source with
  | .ok p => return p
  | .error e => failAt pos (.badRegex source e)

/-- Reads a comparison operator. -/
def compareOp : QueryReader CompareOp := do
  let first ← peek?
  bump
  let orEqual := (← peek?) == some '='
  if orEqual then bump
  return match first == some '>', orEqual with
    | true, true => .gte
    | true, false => .gt
    | false, true => .lte
    | false, false => .lt

/-- The times that compare with `t` as asked. -/
def timesCompared (op : CompareOp) (t : Timestamp) : Filter :=
  match op with
  | .gt => .time (Timestamp.clamp (t.toInt + 1)) Int64.maxValue
  | .gte => .time t Int64.maxValue
  | .lt => .time Int64.minValue (Timestamp.clamp (t.toInt - 1))
  | .lte => .time Int64.minValue t

/-- Reads a comparison with a number or, for the time, with a time. -/
def comparison (now : Timestamp) (field : String) : QueryReader Filter := do
  let op ← compareOp
  let pos := (← get).pos
  let text ← value false
  if field = timeName then
    match Time.parse? text now with
    | some t => return timesCompared op t
    | none => failAt pos (.badTime text)
  else
    match Decimal.read? text with
    | some x => return .range field op x
    | none => failAt pos (.badNumber text)

/-- Characters of stream labels. -/
def isLabelChar (c : Char) : Bool :=
  Text.isAlphanumeric c || c = '_' || c = '.' || c = '-'

/-- Reads the operator of a matcher and what it compares with. -/
def streamOp : QueryReader StreamOp := do
  skipBlanks
  match (← get).rest with
  | '!' :: '=' :: _ =>
    modify (·.skip 2)
    return .ne (← value false)
  | '=' :: '~' :: _ =>
    modify (·.skip 2)
    return .re (← pattern Pattern.anchored)
  | '!' :: '~' :: _ =>
    modify (·.skip 2)
    return .notRe (← pattern Pattern.anchored)
  | '=' :: _ =>
    bump
    return .eq (← value false)
  | _ => fail .noOperator

/-- Reads one matcher of a stream. -/
def streamMatcher : QueryReader StreamMatcher := do
  skipBlanks
  let c ← get
  let name := String.ofList (c.rest.takeWhile isLabelChar)
  set (c.skipWhile isLabelChar)
  if name.isEmpty then fail .noLabel
  else return ⟨name, ← streamOp⟩

/-- A positive duration. -/
def positiveDuration? (text : String) : Option Int64 :=
  (Time.parseDuration? text).filter (0 < ·)

/-- Reads the value of a field that is neither a group nor behind an operator. -/
def plainValue (now : Timestamp) (field : String) : QueryReader Filter := do
  if ← peekQuote then return .phrase field (← quoted)
  else
    let pos := (← get).pos
    let word ← bareWord false
    if word.toList.map Char.toLower = ['i', 'n'] ∧ (← peek?) = some '(' then
      bump
      return .isIn field (← itemList ')' (value false))
    else if field = timeName then
      match positiveDuration? word with
      | some d => return .time (Timestamp.clamp (now.toInt - d.toInt)) now
      | none => failAt pos (.badDuration word)
    else return wordFilter field word

/-- Reads the value of a field that is not a group. -/
def leafValue (now : Timestamp) (field : String) : QueryReader Filter := do
  match ← peek? with
  | some '=' =>
    bump
    return .exact field (← value false)
  | some '~' =>
    bump
    return .regex field (← pattern Pattern.ofSource)
  | some '>' | some '<' => comparison now field
  | some '{' =>
    if field = streamName then
      bump
      return .stream (← itemList '}' streamMatcher)
    else plainValue now field
  | some c => if Text.isBlank c then fail (.noValue field) else plainValue now field
  | none => fail (.noValue field)

/-! ## Filters -/

/-- One filter as itself, several as one. -/
def joined (join : List Filter → Filter) : List Filter → Filter
  | [f] => f
  | fs => join fs

mutual

/-- Reads filters joined by `or`. -/
def orFilter (now : Timestamp) : (fuel : Nat) → (field : String) → QueryReader Filter
  | 0, _ => fail .exhausted
  | fuel + 1, field => do
    let f ← andFilter now fuel field
    return joined .or (f :: (← orRest now fuel field))

/-- Reads what `or` joins to the filters before. -/
def orRest (now : Timestamp) : (fuel : Nat) → (field : String) → QueryReader (List Filter)
  | 0, _ => fail .exhausted
  | fuel + 1, field => do
    if ← eatKeyword "or" then
      let f ← andFilter now fuel field
      return f :: (← orRest now fuel field)
    else return []

/-- Reads filters joined by `and` or by nothing. -/
def andFilter (now : Timestamp) : (fuel : Nat) → (field : String) → QueryReader Filter
  | 0, _ => fail .exhausted
  | fuel + 1, field => do
    let f ← unaryFilter now fuel field
    return joined .and (f :: (← andRest now fuel field))

/-- Reads what is joined to the filters before, up to `or`, a closing parenthesis or a bar. -/
def andRest (now : Timestamp) : (fuel : Nat) → (field : String) → QueryReader (List Filter)
  | 0, _ => fail .exhausted
  | fuel + 1, field => do
    if ← atEnd then return []
    else if (← peek?) = some ')' ∨ (← peek?) = some '|' then return []
    else if ← peekKeyword "or" then return []
    else
      let _ ← eatKeyword "and"
      let f ← unaryFilter now fuel field
      return f :: (← andRest now fuel field)

/-- Reads a negation, a group or a term. -/
def unaryFilter (now : Timestamp) : (fuel : Nat) → (field : String) → QueryReader Filter
  | 0, _ => fail .exhausted
  | fuel + 1, field => do
    if ← eatKeyword "not" then return .not (← unaryFilter now fuel field)
    else if ← eat '!' then return .not (← unaryFilter now fuel field)
    else if ← eat '(' then
      let f ← orFilter now fuel field
      expect ')'
      return f
    else termFilter now fuel field

/-- Reads a quoted text, a word, or a field name with its value. -/
def termFilter (now : Timestamp) : (fuel : Nat) → (field : String) → QueryReader Filter
  | 0, _ => fail .exhausted
  | fuel + 1, field => do
    if ← peekQuote then return .phrase field (← quoted)
    else
      let start ← get
      let word ← bareWord true
      if word.isEmpty then fail .noFilter
      else if (← peek?) = some ':' then
        bump
        if (← peek?) = some '(' then
          bump
          let f ← orFilter now fuel word
          expect ')'
          return f
        else leafValue now word
      else if word = "*" then return .all
      else
        set start
        return wordFilter field (← bareWord false)

end

/-- Reads a filter about the message. -/
def filter (now : Timestamp) : QueryReader Filter := do
  orFilter now (6 * ((← get).rest.length + 1)) msgName

/-! ## Pipes -/

/-- Reads a count. -/
def count : QueryReader Nat := do
  let pos := (← get).pos
  let text ← bareWord true
  match Decimal.readUInt64? text with
  | some n => return n
  | none => failAt pos (.noCount text)

/-- Reads field names separated by commas. `fuel` bounds their number. -/
def fieldNames : (fuel : Nat) → QueryReader (List String)
  | 0 => fail .exhausted
  | fuel + 1 => do
    let name ← value false
    if name.isEmpty then fail .noFieldName
    else if ← eat ',' then return name :: (← fieldNames fuel)
    else return [name]

/-- Reads field names separated by commas, in parentheses or without. -/
def fieldList : QueryReader (List String) := do
  let parens ← eat '('
  let names ← fieldNames ((← get).rest.length + 1)
  if parens then expect ')'
  return names

/-- The number of rows that a limit without a number keeps. -/
def defaultLimit : Nat := 10

def limitPipe : QueryReader Pipe := do
  if (← atEnd) || (← peek?) == some '|' then return .limit defaultLimit
  else return .limit (← count)

def sortKey : QueryReader SortKey := do
  let field ← value false
  if field.isEmpty then fail .noSortField
  else if ← eatKeyword "desc" then return ⟨field, true⟩
  else
    let _ ← eatKeyword "asc"
    return ⟨field, false⟩

def sortPipe : QueryReader Pipe := do
  let _ ← eatKeyword "by"
  let keys ← if ← eat '(' then itemList ')' sortKey else pure []
  let desc ← eatKeyword "desc"
  let limit ← if ← eatKeyword "limit" then some <$> count else pure none
  return .sort ⟨keys, desc, limit⟩

/-- Reads a field to group by, which for the time may have a window. -/
def groupField : QueryReader ByField := do
  let name ← value true
  if name.isEmpty then fail .noGroupField
  else if (← peek?) = some ':' then
    bump
    let pos := (← get).pos
    let text ← bareWord false
    if name ≠ timeName then failAt pos .notBucketable
    else
      match positiveDuration? text with
      | some d => return ⟨name, some d⟩
      | none => failAt pos (.badStep text)
  else return ⟨name, none⟩

def resultName : QueryReader String := do
  let name ← value false
  if name.isEmpty then fail .noResultName else return name

/-- Whether a result name comes next although no keyword announces it. -/
def resultNameAhead : QueryReader Bool := do
  if ← atEnd then return false
  else return !(← peek?).any fun c => c = ',' || c = '|' || c = ')'

/-- Reads a function with its arguments and the name of its result. -/
def statsFunc : QueryReader StatsFunc := do
  let pos := (← get).pos
  let name ← bareWord true
  match StatsKind.ofName? name with
  | none => failAt pos (.unknownFunction name)
  | some kind =>
    expect '('
    let func := StatsFunc.ofArgs kind (← itemList ')' (value false))
    if ← eatKeyword "as" then return { func with result := ← resultName }
    else if ← resultNameAhead then return { func with result := ← resultName }
    else return func

/-- Reads functions separated by commas. `fuel` bounds their number. -/
def statsFuncs : (fuel : Nat) → QueryReader (List StatsFunc)
  | 0 => fail .exhausted
  | fuel + 1 => do
    let f ← statsFunc
    if ← eat ',' then return f :: (← statsFuncs fuel) else return [f]

def statsPipe : QueryReader Pipe := do
  let groupBy ← if ← eatKeyword "by" then
      expect '('
      itemList ')' groupField
    else pure []
  return .stats ⟨groupBy, ← statsFuncs ((← get).rest.length + 1)⟩

/-- Reads the options of facets. `fuel` bounds their number. -/
def facetsOptions : (fuel : Nat) → FacetsPipe → QueryReader FacetsPipe
  | 0, _ => fail .exhausted
  | fuel + 1, p => do
    if (← atEnd) || (← peek?) == some '|' then return p
    else if (← peek?).any Text.isAsciiDigit then
      facetsOptions fuel { p with limit := ← count }
    else if ← eatKeyword "max_values_per_field" then
      facetsOptions fuel { p with maxValuesPerField := ← count }
    else if ← eatKeyword "max_value_len" then
      facetsOptions fuel { p with maxValueLength := ← count }
    else if ← eatKeyword "keep_const_fields" then
      facetsOptions fuel { p with keepConstFields := true }
    else fail (.unknownOption (← get).text)

/-- Reads a pipe behind its bar. The word for statistics may be left out. -/
def pipe (now : Timestamp) : QueryReader Pipe := do
  skipBlanks
  let start ← get
  let name := String.ofList ((← bareWord true).toList.map Char.toLower)
  match name with
  | "filter" | "where" => return .filter (← filter now)
  | "fields" => return .fields (← fieldList)
  | "limit" | "head" => limitPipe
  | "sort" => sortPipe
  | "stats" => statsPipe
  | "facets" => return .facets (← facetsOptions ((← get).rest.length + 1) {})
  | "" => fail .noPipe
  | _ =>
    if (StatsKind.ofName? name).isSome then
      set start
      statsPipe
    else failAt start.pos (.unknownPipe name)

/-- Reads pipes, each behind a bar. `fuel` bounds their number. -/
def pipes (now : Timestamp) : (fuel : Nat) → QueryReader (List Pipe)
  | 0 => fail .exhausted
  | fuel + 1 => do
    if ← eat '|' then
      let p ← pipe now
      return p :: (← pipes now fuel)
    else return []

/-- Reads a query, which must end the text. -/
def query (now : Timestamp) : QueryReader Query := do
  let f ← if (← atEnd) || (← peek?) == some '|' then pure Filter.all else filter now
  let ps ← pipes now ((← get).rest.length + 1)
  if ← atEnd then return ⟨f, ps⟩ else fail (.trailing (← get).text)

end QueryReader

/-- The query a text stands for. Times relative to the present are resolved against `now`. -/
def Query.parse (text : String) (now : Timestamp) : Except ParseError Query :=
  ((QueryReader.query now).run ⟨text.toList, 0⟩).map (·.1)

end Logbook
