/-!
# Command line arguments

Splitting arguments into settings and words. A setting has a long name and perhaps a letter; a flag
stands for itself, any other setting takes a value, which is attached to it or is the next argument.
Letters can be written together.
-/

namespace CollisionMesh.CommandLine

set_option autoImplicit false

inductive Setting where
  | verbose
  | version
  | output
  | symbol
  | recursive
  | scale
  | axis
  | surface
  | terrain
  | tagBinding
  | tagPrefix
  | onMalformedVertex
  deriving DecidableEq, Repr

namespace Setting

def name : Setting → String
  | verbose => "verbose"
  | version => "version"
  | output => "output"
  | symbol => "symbol"
  | recursive => "recursive"
  | scale => "scale"
  | axis => "axis"
  | surface => "surface"
  | terrain => "terrain"
  | tagBinding => "tag-binding"
  | tagPrefix => "tag-prefix"
  | onMalformedVertex => "on-malformed-vertex"

def letter? : Setting → Option Char
  | verbose => some 'v'
  | version => some 'V'
  | output => some 'o'
  | recursive => some 'r'
  | scale => some 's'
  | axis => some 'a'
  | _ => none

def isFlag : Setting → Bool
  | verbose | version | recursive => true
  | _ => false

end Setting

inductive Item where
  /-- A setting with its value, which is empty for a flag. -/
  | given (setting : Setting) (value : String)
  | word (text : String)
  deriving DecidableEq, Repr

namespace Item

/-- Whether an argument is a setting; a lone dash is a word. -/
def isSetting (argument : String) : Bool :=
  argument.toList.head? == some '-' && argument.toList != ['-']

/-- The settings that letters written together stand for, and the last one if its value is still to
come. The version answers at once, so what stands behind it is not looked at. -/
def ofLetters (allowed : List Setting) : List Char → Option (List Item × Option Setting)
  | [] => some ([], none)
  | c :: rest =>
    match allowed.find? fun setting => setting.letter? == some c with
    | none => none
    | some setting =>
      if setting = .version then some ([.given setting ""], none)
      else if setting.isFlag then
        (ofLetters allowed rest).map fun read => (.given setting "" :: read.1, read.2)
      else
        match rest with
        | [] => some ([], some setting)
        | '=' :: value => some ([.given setting (String.ofList value)], none)
        | value => some ([.given setting (String.ofList value)], none)

/-- The setting that a long name stands for, as `ofLetters` gives it; a value may be
attached to the name. -/
def ofName (allowed : List Setting) (argument : List Char) : Option (List Item × Option Setting) :=
  let name := String.ofList (argument.takeWhile fun c => c != '=')
  match allowed.find? fun setting => setting.name == name with
  | none => none
  | some setting =>
    match argument.dropWhile fun c => c != '=' with
    | [] => some (if setting.isFlag then ([.given setting ""], none) else ([], some setting))
    | _ :: value =>
      if setting.isFlag then none else some ([.given setting (String.ofList value)], none)

def ofSetting (allowed : List Setting) (argument : String) : Option (List Item × Option Setting) :=
  match argument.toList with
  | '-' :: '-' :: name => ofName allowed name
  | '-' :: letters => ofLetters allowed letters
  | _ => none

/-- The items of arguments of which only some settings are allowed. After two
dashes come words only. -/
def ofArguments (allowed : List Setting) : List String → Option (List Item)
  | [] => some []
  | argument :: rest =>
    if argument = "--" then some (rest.map Item.word)
    else if isSetting argument then
      match ofSetting allowed argument with
      | none => none
      | some (items, none) => (ofArguments allowed rest).map (items ++ ·)
      | some (items, some setting) =>
        match rest with
        | [] => none
        | value :: rest =>
          if isSetting value then none
          else (ofArguments allowed rest).map fun more => items ++ .given setting value :: more
    else (ofArguments allowed rest).map (Item.word argument :: ·)

def words (items : List Item) : List String :=
  items.filterMap fun
    | .word text => some text
    | .given _ _ => none

def settings (items : List Item) : List (Setting × String) :=
  items.filterMap fun
    | .word _ => none
    | .given setting value => some (setting, value)

end Item

end CollisionMesh.CommandLine
