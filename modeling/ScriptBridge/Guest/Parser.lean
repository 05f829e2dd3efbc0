import ScriptBridge.Guest.Syntax
import ScriptBridge.Guest.Token

/-! From tokens to programs. The parser looks one token ahead, reports the first token that fits no
rule, and notes with every expression that can fail the line it is reported at: an operator its own
line, a call the line of its argument list, a lookup the line it was completed on. -/

namespace ScriptBridge.Guest

/-- What the parser knows of a function it is inside of. -/
structure OpenFunction where
  variadic : Bool
  loops : Nat
  /-- Line of a break that no loop encloses. -/
  strayBreak : Option Nat

structure Parsing where
  tokens : List Token
  /-- The line of the token before the current one. -/
  lastLine : Nat
  functions : List OpenFunction

/-- Parsing steps; a failure is the finished complaint. -/
abbrev Parser := StateT Parsing (Except String)

namespace Parser

def current : Parser Token := do return (← get).tokens.headD default

def lexeme : Parser Lexeme := do return (← current).lexeme

def line : Parser Nat := do return (← current).line

def lastLine : Parser Nat := do return (← get).lastLine

def complain {α : Type} (message : String) : Parser α := do
  let t ← current
  throw (Token.located t.line (message ++ " near " ++ t.shown))

/-- A malformed token complains as soon as it becomes the current one. -/
def refuseMalformed (t : Token) : Parser Unit :=
  match t.lexeme with
  | .malformed message => throw message
  | _ => pure ()

def advance : Parser Unit := do
  let p ← get
  match p.tokens with
  | t :: next :: rest =>
    refuseMalformed next
    set { p with tokens := next :: rest, lastLine := t.line }
  | _ => pure ()

/-- The token after the current one. -/
def peek : Parser Lexeme := do
  match (← get).tokens with
  | _ :: next :: _ =>
    refuseMalformed next
    return next.lexeme
  | _ => return .eof

def isSymbol (text : String) : Parser Bool := do return (← lexeme) = .symbol text

/-- Takes a symbol if it is the current token. -/
def accept (text : String) : Parser Bool := do
  if ← isSymbol text then
    advance
    return true
  else return false

/-- Accepts what separates the fields of a table. -/
def acceptSeparator : Parser Bool := do
  if ← accept "," then return true
  else accept ";"

def expected {α : Type} (text : String) : Parser α := complain ("'" ++ text ++ "' expected")

def expect (text : String) : Parser Unit := do
  unless ← accept text do expected text

/-- Expects the end of a construct that began with a symbol on a line. -/
def expectMatch (text opening : String) (start : Nat) : Parser Unit := do
  unless ← accept text do
    if (← line) = start then expected text
    else
      let place := "(to close '" ++ opening ++ "' at line " ++ toString start ++ ")"
      complain ("'" ++ text ++ "' expected " ++ place)

def takeName : Parser String := do
  match ← lexeme with
  | .name n =>
    advance
    return n
  | _ => complain "<name> expected"

def inFunction (f : OpenFunction → OpenFunction) : Parser Unit :=
  modify fun p => match p.functions with
    | top :: rest => { p with functions := f top :: rest }
    | [] => p

def openFunction (variadic : Bool) : Parser Unit :=
  modify fun p => { p with functions := ⟨variadic, 0, none⟩ :: p.functions }

def closeFunction : Parser Unit := do
  let p ← get
  match p.functions with
  | top :: rest =>
    if let some stray := top.strayBreak then
      throw (Token.located (← line) ("break outside a loop at line " ++ toString stray))
    set { p with functions := rest }
  | [] => pure ()

def insideVariadic : Parser Bool := do
  return ((← get).functions.headD ⟨true, 0, none⟩).variadic

/-- A lookup is completed no earlier than the token that ends it. -/
def completedAt (line : Nat) : Expr → Expr
  | .index object key _ => .index object key line
  | e => e

/-- The last expression of a list is completed by the token that ends the list. -/
def lastCompletedAt (line : Nat) : List Expr → List Expr
  | [] => []
  | [e] => [completedAt line e]
  | e :: rest => e :: lastCompletedAt line rest

/-- An item of a table is completed by the separator or brace after it. -/
def itemCompletedAt (line : Nat) : Field → Field
  | .item e => .item (completedAt line e)
  | f => f

/-- A chain of concatenations is carried out as a whole, on the line of its first operator. -/
def chainedAt (line : Nat) : Expr → Expr
  | .binary .concat left right _ => .binary .concat left (chainedAt line right) line
  | .single e => .single (chainedAt line e)
  | e => e

/-- Operators with their binding strength to the left and to the right. -/
def binaryOp? : Lexeme → Option (BinaryOp × Nat × Nat)
  | .symbol "+" => some (.add, 10, 10)
  | .symbol "-" => some (.sub, 10, 10)
  | .symbol "*" => some (.mul, 11, 11)
  | .symbol "%" => some (.mod, 11, 11)
  | .symbol "^" => some (.pow, 14, 13)
  | .symbol "/" => some (.div, 11, 11)
  | .symbol "//" => some (.floorDiv, 11, 11)
  | .symbol "&" => some (.bitAnd, 6, 6)
  | .symbol "|" => some (.bitOr, 4, 4)
  | .symbol "~" => some (.bitXor, 5, 5)
  | .symbol "<<" => some (.shiftLeft, 7, 7)
  | .symbol ">>" => some (.shiftRight, 7, 7)
  | .symbol ".." => some (.concat, 9, 8)
  | .symbol "==" => some (.eq, 3, 3)
  | .symbol "~=" => some (.ne, 3, 3)
  | .symbol "<" => some (.lt, 3, 3)
  | .symbol "<=" => some (.le, 3, 3)
  | .symbol ">" => some (.gt, 3, 3)
  | .symbol ">=" => some (.ge, 3, 3)
  | _ => none

/-- How a parsed operator combines its operands. -/
inductive Joint where
  | binary (op : BinaryOp)
  | and
  | or

def joint? : Lexeme → Option (Joint × Nat × Nat)
  | .symbol "and" => some (.and, 2, 2)
  | .symbol "or" => some (.or, 1, 1)
  | l => (binaryOp? l).map fun (op, left, right) => (.binary op, left, right)

def Joint.join (j : Joint) (left right : Expr) (line : Nat) : Expr :=
  match j with
  | .binary .concat => .binary .concat left (chainedAt line right) line
  | .binary op => .binary op left right line
  | .and => .and left right
  | .or => .or left right

def unaryOp? : Lexeme → Option UnaryOp
  | .symbol "not" => some .not
  | .symbol "-" => some .neg
  | .symbol "#" => some .len
  | .symbol "~" => some .bitNot
  | _ => none

def unaryStrength : Nat := 12

/-- Whether a token ends a block. -/
def endsBlock : Lexeme → Bool
  | .symbol "else" | .symbol "elseif" | .symbol "end" | .symbol "until" | .eof => true
  | _ => false

def isAssignable : Expr → Bool
  | .name _ | .index _ _ _ => true
  | _ => false

def isCall : Expr → Bool
  | .call _ _ _ | .method _ _ _ _ _ => true
  | _ => false

def tooDeep {α : Type} : Parser α := complain "chunk has too many syntax levels"

/-- The attribute of a local name, read and dropped. -/
def skipAttribute : Parser Unit := do
  if ← accept "<" then
    let mark ← takeName
    unless mark = "const" ∨ mark = "close" do
      throw (Token.located (← line) ("unknown attribute '" ++ mark ++ "'"))
    expect ">"

mutual

def expr : Nat → Parser Expr
  | 0 => tooDeep
  | fuel + 1 => subexpr fuel 0
termination_by structural fuel => fuel

/-- An expression whose operators bind more strongly than `limit`. -/
def subexpr : Nat → Nat → Parser Expr
  | 0, _ => tooDeep
  | fuel + 1, limit => do
    let start ← line
    match unaryOp? (← lexeme) with
    | some op =>
      advance
      let operand ← subexpr fuel unaryStrength
      operators fuel limit (.unary op operand start)
    | none =>
      let left ← simple fuel
      operators fuel limit left
termination_by structural fuel => fuel

def operators : Nat → Nat → Expr → Parser Expr
  | 0, _, _ => tooDeep
  | fuel + 1, limit, left => do
    match joint? (← lexeme) with
    | some (j, leftStrength, rightStrength) =>
      if leftStrength > limit then
        let start ← line
        advance
        let right ← subexpr fuel rightStrength
        operators fuel limit (j.join (completedAt start left) right start)
      else return left
    | none => return left
termination_by structural fuel => fuel

def simple : Nat → Parser Expr
  | 0 => tooDeep
  | fuel + 1 => do
    match ← lexeme with
    | .int i => advance; return .int i
    | .float x => advance; return .float x
    | .str b => advance; return .str b
    | .symbol "nil" => advance; return .nil
    | .symbol "true" => advance; return .bool true
    | .symbol "false" => advance; return .bool false
    | .symbol "..." =>
      unless ← insideVariadic do complain "cannot use '...' outside a vararg function"
      advance
      return .varargs
    | .symbol "\x7b" => constructor fuel
    | .symbol "function" =>
      let start ← line
      advance
      return .function (← functionBody fuel [] start)
    | _ => suffixed fuel
termination_by structural fuel => fuel

/-- A name or an expression in parentheses. -/
def primary : Nat → Parser Expr
  | 0 => tooDeep
  | fuel + 1 => do
    match ← lexeme with
    | .name n => advance; return .name n
    | .symbol "(" =>
      let start ← line
      advance
      let inner ← expr fuel
      expectMatch ")" "(" start
      return .single (completedAt (← lastLine) inner)
    | _ => complain "unexpected symbol"
termination_by structural fuel => fuel

def suffixed : Nat → Parser Expr
  | 0 => tooDeep
  | fuel + 1 => do suffixes fuel (← primary fuel)
termination_by structural fuel => fuel

def suffixes : Nat → Expr → Parser Expr
  | 0, _ => tooDeep
  | fuel + 1, e => do
    match ← lexeme with
    | .symbol "." =>
      advance
      let n ← takeName
      suffixes fuel (.index e (.str n.toUTF8) (← lastLine))
    | .symbol "[" =>
      advance
      let key ← expr fuel
      expect "]"
      suffixes fuel (.index e key (← lastLine))
    | .symbol ":" =>
      advance
      let n ← takeName
      let lookupLine ← lastLine
      let start ← line
      let args ← arguments fuel
      suffixes fuel (.method (completedAt lookupLine e) n args lookupLine start)
    | .symbol "(" | .symbol "\x7b" | .str _ =>
      let start ← line
      let args ← arguments fuel
      suffixes fuel (.call e args start)
    | _ => return e
termination_by structural fuel => fuel

def arguments : Nat → Parser (List Expr)
  | 0 => tooDeep
  | fuel + 1 => do
    match ← lexeme with
    | .str b => advance; return [.str b]
    | .symbol "\x7b" => return [← constructor fuel]
    | .symbol "(" =>
      let start ← line
      advance
      if ← accept ")" then return []
      else
        let args ← exprs fuel
        expectMatch ")" "(" start
        return lastCompletedAt (← lastLine) args
    | _ => complain "function arguments expected"
termination_by structural fuel => fuel

def exprs : Nat → Parser (List Expr)
  | 0 => tooDeep
  | fuel + 1 => do
    let first ← expr fuel
    if ← accept "," then
      let separatorLine ← lastLine
      return completedAt separatorLine first :: (← exprs fuel)
    else return [first]
termination_by structural fuel => fuel

def constructor : Nat → Parser Expr
  | 0 => tooDeep
  | fuel + 1 => do
    let start ← line
    expect "\x7b"
    let fields ← fieldsUntilBrace fuel
    expectMatch "\x7d" "\x7b" start
    return .table fields
termination_by structural fuel => fuel

def fieldsUntilBrace : Nat → Parser (List Field)
  | 0 => tooDeep
  | fuel + 1 => do
    if ← isSymbol "\x7d" then return []
    else
      let first ← field fuel
      if ← acceptSeparator then
        let separatorLine ← lastLine
        return itemCompletedAt separatorLine first :: (← fieldsUntilBrace fuel)
      else return [itemCompletedAt (← line) first]
termination_by structural fuel => fuel

def field : Nat → Parser Field
  | 0 => tooDeep
  | fuel + 1 => do
    match ← lexeme with
    | .name n =>
      if (← peek) = .symbol "=" then
        advance
        advance
        let value ← expr fuel
        return .keyed (.str n.toUTF8) value (← lastLine)
      else return .item (← expr fuel)
    | .symbol "[" =>
      advance
      let key ← expr fuel
      expect "]"
      expect "="
      let value ← expr fuel
      return .keyed key value (← lastLine)
    | _ => return .item (← expr fuel)
termination_by structural fuel => fuel

/-- Parameters and body of a function whose keyword stands on line `start`. -/
def functionBody : Nat → List String → Nat → Parser FunctionBody
  | 0, _, _ => tooDeep
  | fuel + 1, implicit, start => do
    expect "("
    let (params, variadic) ← if ← isSymbol ")" then pure ([], false) else parameters fuel
    expect ")"
    openFunction variadic
    let body ← block fuel
    expectMatch "end" "function" start
    closeFunction
    return .mk (implicit ++ params) variadic body
termination_by structural fuel => fuel

def parameters : Nat → Parser (List String × Bool)
  | 0 => tooDeep
  | fuel + 1 => do
    match ← lexeme with
    | .name n =>
      advance
      if ← accept "," then
        let (rest, variadic) ← parameters fuel
        return (n :: rest, variadic)
      else return ([n], false)
    | .symbol "..." => advance; return ([], true)
    | _ => complain "<name> or '...' expected"
termination_by structural fuel => fuel

def block : Nat → Parser (List Stat)
  | 0 => tooDeep
  | fuel + 1 => do
    if endsBlock (← lexeme) then return []
    else if ← accept ";" then block fuel
    else if ← isSymbol "return" then return [← returnStat fuel]
    else
      let first ← stat fuel
      return first :: (← block fuel)
termination_by structural fuel => fuel

def returnStat : Nat → Parser Stat
  | 0 => tooDeep
  | fuel + 1 => do
    advance
    let values ← if endsBlock (← lexeme) || (← isSymbol ";") then pure [] else exprs fuel
    discard (accept ";")
    return .returns values
termination_by structural fuel => fuel

/-- The body of a loop. -/
def loopBody : Nat → Parser (List Stat)
  | 0 => tooDeep
  | fuel + 1 => do
    inFunction fun f => { f with loops := f.loops + 1 }
    let body ← block fuel
    inFunction fun f => { f with loops := f.loops - 1 }
    return body
termination_by structural fuel => fuel

def stat : Nat → Parser Stat
  | 0 => tooDeep
  | fuel + 1 => do
    let start ← line
    match ← lexeme with
    | .symbol "if" => ifStat fuel start
    | .symbol "while" =>
      advance
      let condition ← expr fuel
      expect "do"
      let body ← loopBody fuel
      expectMatch "end" "while" start
      return .while condition body
    | .symbol "do" =>
      advance
      let body ← block fuel
      expectMatch "end" "do" start
      return .block body
    | .symbol "for" => forStat fuel start
    | .symbol "repeat" =>
      advance
      let body ← loopBody fuel
      expectMatch "until" "repeat" start
      return .repeat body (← expr fuel)
    | .symbol "function" => functionStat fuel start
    | .symbol "local" =>
      advance
      if ← accept "function" then
        let n ← takeName
        return .declareFunction n (← functionBody fuel [] start)
      else localStat fuel
    | .symbol "break" =>
      advance
      inFunction fun f =>
        if f.loops = 0 then { f with strayBreak := f.strayBreak.or (some start) } else f
      return .breaks
    | _ => exprStat fuel
termination_by structural fuel => fuel

def ifStat : Nat → Nat → Parser Stat
  | 0, _ => tooDeep
  | fuel + 1, start => do
    advance
    let condition ← expr fuel
    expect "then"
    let condition := completedAt (← lastLine) condition
    let whenTrue ← block fuel
    if ← isSymbol "elseif" then
      return .ifElse condition whenTrue [← ifStat fuel start]
    else if ← accept "else" then
      let whenFalse ← block fuel
      expectMatch "end" "if" start
      return .ifElse condition whenTrue whenFalse
    else
      expectMatch "end" "if" start
      return .ifElse condition whenTrue []
termination_by structural fuel => fuel

def names : Nat → Parser (List String)
  | 0 => tooDeep
  | fuel + 1 => do
    let n ← takeName
    if ← accept "," then return n :: (← names fuel)
    else return [n]
termination_by structural fuel => fuel

def forStat : Nat → Nat → Parser Stat
  | 0, _ => tooDeep
  | fuel + 1, start => do
    advance
    let n ← takeName
    match ← lexeme with
    | .symbol "=" =>
      advance
      let first ← expr fuel
      expect ","
      let last ← expr fuel
      let step ← if ← accept "," then some <$> expr fuel else pure none
      expect "do"
      let entryLine ← lastLine
      let body ← loopBody fuel
      expectMatch "end" "for" start
      return .count n first last step body entryLine
    | .symbol "," | .symbol "in" =>
      let more ← if ← accept "," then names fuel else pure []
      expect "in"
      let source ← exprs fuel
      expect "do"
      let body ← loopBody fuel
      expectMatch "end" "for" start
      return .each (n :: more) source body start
    | _ => complain "'=' or 'in' expected"
termination_by structural fuel => fuel

def functionStat : Nat → Nat → Parser Stat
  | 0, _ => tooDeep
  | fuel + 1, start => do
    advance
    let n ← takeName
    let target ← fieldPath fuel (.name n)
    if ← accept ":" then
      let method ← takeName
      let f ← functionBody fuel ["self"] start
      return .assign [.index target (.str method.toUTF8) start] [.function f] start
    else
      let f ← functionBody fuel [] start
      return .assign [target] [.function f] start
termination_by structural fuel => fuel

def fieldPath : Nat → Expr → Parser Expr
  | 0, _ => tooDeep
  | fuel + 1, e => do
    if ← accept "." then
      let n ← takeName
      fieldPath fuel (.index e (.str n.toUTF8) (← lastLine))
    else return e
termination_by structural fuel => fuel

def localStat : Nat → Parser Stat
  | 0 => tooDeep
  | fuel + 1 => do
    let declared ← localNames fuel
    let values ← if ← accept "=" then exprs fuel else pure []
    return .declare declared values
termination_by structural fuel => fuel

def localNames : Nat → Parser (List String)
  | 0 => tooDeep
  | fuel + 1 => do
    let n ← takeName
    skipAttribute
    if ← accept "," then return n :: (← localNames fuel)
    else return [n]
termination_by structural fuel => fuel

def exprStat : Nat → Parser Stat
  | 0 => tooDeep
  | fuel + 1 => do
    let e ← suffixed fuel
    if (← isSymbol "=") || (← isSymbol ",") then
      unless isAssignable e do complain "syntax error"
      let targets ← moreTargets fuel
      expect "="
      let values ← exprs fuel
      return .assign (e :: targets) values (← lastLine)
    else if isCall e then return .call e
    else complain "syntax error"
termination_by structural fuel => fuel

def moreTargets : Nat → Parser (List Expr)
  | 0 => tooDeep
  | fuel + 1 => do
    if ← accept "," then
      let e ← suffixed fuel
      unless isAssignable e do complain "syntax error"
      return e :: (← moreTargets fuel)
    else return []
termination_by structural fuel => fuel

end

/-- A whole source: a variadic function without parameters. -/
def chunk (fuel : Nat) : Parser FunctionBody := do
  refuseMalformed (← current)
  openFunction true
  let body ← block fuel
  unless (← lexeme) = .eof do complain "<eof> expected"
  closeFunction
  return .mk [] true body

/-- Recursion allowance for a source: a few levels per token. -/
def allowance (tokens : List Token) : Nat := 16 * tokens.length + 64

def parse (source : String) : Except String FunctionBody :=
  let tokens := Token.ofSource source
  (chunk (allowance tokens)).run' ⟨tokens, 1, []⟩

end Parser
end ScriptBridge.Guest
