/-
The words of a command line. A grammar has switches, which may stand anywhere, and expects
one operand, which may take all words after it along. Words are told apart first, each by
itself (`Word.ofText`), and then turned into actions from left to right (`actions`). Two
dashes end the switches.

A switch goes by a dash and a letter or by two dashes and a word. A word may be cut short as
long as no other switch of the grammar starts so, a value may follow an equals sign, and
letters may stand together behind one dash. An equals sign behind a letter is passed over, so
it may as well be followed by more letters.

Actions are lazy in one sense that matters: an action that ends everything, such as a call
for help, comes before the refusal of what stands to its right. Only words that could be
several switches are refused before any action.
-/
import SystemMap.Text.Numeral

namespace SystemMap.Arguments

-- =============================================================== refusals

/-- What is wrong with an argument. -/
inductive Objection where
  | noValue
  | unwanted (value : String)
  | notAmong (value : String) (choices : List String)
  | notWhole (value : String)
deriving DecidableEq

/-- Why a command line is refused. -/
inductive Refusal where
  | ambiguous (word : String) (names : List String)
  | argument (name : String) (objection : Objection)
  | required (name : String)
  | unrecognized (words : List String)
deriving DecidableEq

/-- What a message says about an argument. -/
def Objection.message : Objection → String
  | .noValue => "expected one argument"
  | .unwanted value => "ignored explicit argument " ++ Text.quote value
  | .notAmong value choices =>
    "invalid choice: " ++ Text.quote value ++ " (choose from " ++
      ", ".intercalate (choices.map Text.quote) ++ ")"
  | .notWhole value => "invalid int value: " ++ Text.quote value

/-- What a message says about a refusal. -/
def Refusal.message : Refusal → String
  | .ambiguous word names =>
    "ambiguous option: " ++ word ++ " could match " ++ ", ".intercalate names
  | .argument name objection => "argument " ++ name ++ ": " ++ objection.message
  | .required name => "the following arguments are required: " ++ name
  | .unrecognized words => "unrecognized arguments: " ++ " ".intercalate words

-- =============================================================== grammars

variable {φ ν : Type}

/-- A switch: its names, and a key on the left if it stands alone, on the right if a value
belongs to it. -/
structure Switch (φ ν : Type) where
  names : List String
  key : φ ⊕ ν

/-- How messages name a switch. -/
def Switch.title (s : Switch φ ν) : String := "/".intercalate s.names

/-- Switches, and whether the operand takes all words after it along. -/
structure Grammar (φ ν : Type) where
  switches : List (Switch φ ν)
  takesRest : Bool

namespace Grammar

/-- Every name of a switch, with the switch. -/
def named (g : Grammar φ ν) : List (String × Switch φ ν) :=
  g.switches.flatMap fun s => s.names.map (·, s)

/-- The switch of a name. -/
def find? (g : Grammar φ ν) (name : String) : Option (Switch φ ν) := g.named.lookup name

end Grammar

-- ================================================================== words

/-- A word of a command line. -/
inductive Word (φ ν : Type) where
  | operand (text : String)
  /-- The two dashes after which all words are operands. -/
  | separator
  /-- A switch, with what is attached to its name. -/
  | switch (text : String) (s : Switch φ ν) (attached : Option String)
  /-- A word with the look of a switch that the grammar does not have. -/
  | unknown (text : String)

namespace Word

/-- The two dashes that end the switches. -/
def separatorText : String := "--"

/-- A word as it was written. -/
def text : Word φ ν → String
  | .operand t => t
  | .separator => separatorText
  | .switch t _ _ => t
  | .unknown t => t

/-- A word cut at its first equals sign. -/
def cut (cs : List Char) : String × Option String :=
  (String.ofList (cs.takeWhile (· ≠ '=')), match cs.dropWhile (· ≠ '=') with
    | _ :: value => some (String.ofList value)
    | [] => none)

/-- The switches that a word with a dash can stand for, with the names that it stands for. -/
def candidates (g : Grammar φ ν) : List Char → List (String × Switch φ ν × Option String)
  | '-' :: '-' :: rest =>
    let (front, attached) := cut ('-' :: '-' :: rest)
    (g.named.filter fun n => front.isPrefixOf n.1).map fun n => (n.1, n.2, attached)
  | dash :: letter :: rest =>
    let name := String.ofList [dash, letter]
    (g.named.filter (·.1 = name)).map fun n => (n.1, n.2, some (String.ofList rest))
  | _ => []

/-- Whether what follows a dash makes it a minus sign: digits, perhaps with a point before
some of them, and perhaps a line end. -/
def isNumber (body : List Char) : Bool :=
  let isDigit := fun c => (Text.digitValue? c).isSome
  let body := if body.getLast? = some '\n' then body.dropLast else body
  match body.dropWhile isDigit with
  | [] => !body.isEmpty
  | '.' :: fraction => !fraction.isEmpty && fraction.all isDigit
  | _ => false

/-- A word that no switch is named by: an operand if it is a number or holds a blank. -/
def unnamed (text : String) (body : List Char) : Word φ ν :=
  if isNumber body || body.contains ' ' then .operand text else .unknown text

/-- A word before any separator. -/
def ofText (g : Grammar φ ν) (text : String) : Except Refusal (Word φ ν) :=
  match text.toList with
  | '-' :: c :: rest =>
    let (front, attached) := cut ('-' :: c :: rest)
    match g.find? text, g.find? front with
    | some s, _ => .ok (.switch text s none)
    | none, some s => .ok (.switch text s attached)
    | none, none =>
      match candidates g ('-' :: c :: rest) with
      | [] => .ok (unnamed text (c :: rest))
      | [(_, s, attached)] => .ok (.switch text s attached)
      | several => .error (.ambiguous text (several.map (·.1)))
  | _ => .ok (.operand text)

/-- The words of a command line. -/
def all (g : Grammar φ ν) : List String → Except Refusal (List (Word φ ν))
  | [] => .ok []
  | text :: rest =>
    if text = separatorText then .ok (.separator :: rest.map .operand)
    else do
      let word ← ofText g text
      return word :: (← all g rest)

end Word

-- ================================================================ actions

/-- What a command line asks for, step by step. -/
inductive Action (φ ν : Type) where
  | flag (key : φ)
  | value (name : String) (key : ν) (text : String)
  /-- The operand, and the words that it takes along. -/
  | operand (text : String) (rest : List String)
  /-- A word that has no meaning. -/
  | extra (text : String)
  /-- The end, after what came before. -/
  | refuse (refusal : Refusal)

/-- A switch that waits for its value. -/
structure Waiting (ν : Type) where
  name : String
  key : ν

/-- What one word asks for, and what it waits for. -/
abbrev Steps (φ ν : Type) := List (Action φ ν) × Option (Waiting ν)

/-- The refusal of a value. -/
def unwanted (s : Switch φ ν) (value : String) : Refusal :=
  .argument s.title (.unwanted value)

/-- A switch without anything attached. -/
def ofAlone (s : Switch φ ν) : Steps φ ν :=
  match s.key with
  | .inl key => ([.flag key], none)
  | .inr key => ([], some ⟨s.title, key⟩)

/-- A switch of one letter with the letters behind it, which are switches too until one of
them takes what is left as its value. A letter that is no switch spoils all of them. -/
def ofLetters (g : Grammar φ ν) (s : Switch φ ν) : List Char → Except Refusal (Steps φ ν)
  | [] => .ok (ofAlone s)
  | c :: rest =>
    match s.key with
    | .inr key => .ok ([.value s.title key (String.ofList (c :: rest))], none)
    | .inl key =>
      match g.find? (String.ofList ['-', c]) with
      | none => .error (unwanted s (String.ofList (c :: rest)))
      | some next => (ofLetters g next rest).map fun steps => (.flag key :: steps.1, steps.2)

/-- A switch, named by a letter or a word, with a text attached, which may be empty. -/
def ofAttached (g : Grammar φ ν) (s : Switch φ ν) (byLetter : Bool) (text : String) :
    Except Refusal (Steps φ ν) :=
  if byLetter && !text.isEmpty then ofLetters g s text.toList
  else match s.key with
    | .inl _ => .error (unwanted s text)
    | .inr key => .ok ([.value s.title key text], none)

/-- A switch as it stands in a word. -/
def ofSwitch (g : Grammar φ ν) (word : String) (s : Switch φ ν) :
    Option String → Except Refusal (Steps φ ν)
  | none => .ok (ofAlone s)
  | some text => ofAttached g s (word.toList[1]? ≠ some '-') text

/-- Where a command line stands with its operand. -/
inductive Stage where
  | wanted
  /-- The word before was the operand. -/
  | justTaken
  | taken

/-- The stage after a word that is no operand. -/
def Stage.next : Stage → Stage
  | .wanted => .wanted
  | .justTaken => .taken
  | .taken => .taken

/-- The actions of a command line. A separator beside the operand belongs to it. -/
def actionsFrom (g : Grammar φ ν) :
    Option (Waiting ν) → Stage → List (Word φ ν) → List (Action φ ν)
  | none, _, [] => []
  | some w, _, [] => [.refuse (.argument w.name .noValue)]
  | some w, stage, .operand text :: rest =>
    .value w.name w.key text :: actionsFrom g none stage.next rest
  | some w, _, _ :: _ => [.refuse (.argument w.name .noValue)]
  | none, stage, .unknown text :: rest => .extra text :: actionsFrom g none stage.next rest
  | none, stage, .switch word s attached :: rest =>
    match ofSwitch g word s attached with
    | .error refusal => [.refuse refusal]
    | .ok steps => steps.1 ++ actionsFrom g steps.2 stage.next rest
  | none, .wanted, .operand text :: rest =>
    if g.takesRest then [.operand text (rest.map Word.text)]
    else .operand text [] :: actionsFrom g none .justTaken rest
  | none, .wanted, .separator :: rest =>
    if rest.isEmpty then [.extra Word.separatorText]
    else if g.takesRest then [.operand Word.separatorText (rest.map Word.text)]
    else actionsFrom g none .wanted rest
  | none, .justTaken, .separator :: rest => actionsFrom g none .taken rest
  | none, _, word :: rest => .extra word.text :: actionsFrom g none .taken rest

/-- The actions that the words of a command line ask for. -/
def actions (g : Grammar φ ν) (argv : List String) : Except Refusal (List (Action φ ν)) :=
  (Word.all g argv).map (actionsFrom g none .wanted)

end SystemMap.Arguments
