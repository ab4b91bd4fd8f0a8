/-!
# Options on a command line

Arguments are scanned from left to right.  An option has a long name and may have a short one; its
value follows as the next argument or is attached to it.  An argument that starts with a hyphen is
never the value of the one before.  Everything from the name of a command on is left to that
command.
-/

namespace Unnest.CommandLine

/-- What giving an option does. -/
inductive OptionEffect where
  /-- The option takes a value, which has to be acceptable. -/
  | takesValue (isAccepted : String → Bool)
  /-- The option is on. -/
  | turnsOn
  /-- The version is shown, whatever else is given after it. -/
  | showsVersion
  /-- A help text is shown, whatever else is given after it. -/
  | showsHelp

/-- An option. -/
structure OptionForm where
  name : String
  short : Option Char
  effect : OptionEffect

/-- Why nothing is run. -/
inductive Stop where
  | version
  | help
  | misuse
deriving DecidableEq, Repr, Inhabited

/-- The options that were given, with their values; an option that is on has an empty value. -/
abbrev GivenOptions := List (String × String)

/-- An argument that names an option, and the value attached to it. -/
structure OptionUse where
  form : OptionForm
  attached : Option String

/-- The option that a long argument names, written after two hyphens. -/
def useOfLong? (forms : List OptionForm) (argument : List Char) : Option OptionUse :=
  let name := String.ofList (argument.takeWhile (· != '='))
  let attached :=
    match argument.dropWhile (· != '=') with
    | [] => none
    | _ :: value => some (String.ofList value)
  (forms.find? fun form => form.name == name).map fun form => ⟨form, attached⟩

/-- The option that a short argument names, written after one hyphen.  What follows it is its value,
with or without an equals sign. -/
def useOfShort? (forms : List OptionForm) (letter : Char) (rest : List Char) :
    Option OptionUse :=
  let attached :=
    match rest with
    | [] => none
    | '=' :: value => some (String.ofList value)
    | value => some (String.ofList value)
  (forms.find? fun form => form.short == some letter).map fun form => ⟨form, attached⟩

/-- The option that an argument names, or `none` where it names none. -/
def useOf? (forms : List OptionForm) (argument : String) : Option OptionUse :=
  match argument.toList with
  | '-' :: '-' :: long => useOfLong? forms long
  | '-' :: letter :: rest => useOfShort? forms letter rest
  | _ => none

/-- An argument that starts with a hyphen and is more than that. -/
def looksLikeOption (argument : String) : Bool :=
  match argument.toList with
  | '-' :: _ :: _ => true
  | _ => false

/-- Note an option, which may be given once only. -/
def note (given : GivenOptions) (name value : String) (isAccepted : Bool) :
    Except Stop GivenOptions :=
  if isAccepted && (given.lookup name).isNone then .ok ((name, value) :: given)
  else .error .misuse

/-- Scan arguments up to the name of a command.  After a double hyphen nothing may follow. -/
def scan (forms : List OptionForm) (commands : List String) (given : GivenOptions) :
    List String → Except Stop (GivenOptions × List String)
  | [] => .ok (given, [])
  | argument :: rest =>
      if commands.contains argument then .ok (given, argument :: rest)
      else if argument == "--" && rest.isEmpty then .ok (given, [])
      else
        match useOf? forms argument with
        | none => .error .misuse
        | some ⟨⟨_, _, .showsVersion⟩, _⟩ => .error .version
        | some ⟨⟨_, _, .showsHelp⟩, _⟩ => .error .help
        | some ⟨⟨_, _, .turnsOn⟩, some _⟩ => .error .misuse
        | some ⟨⟨name, _, .turnsOn⟩, none⟩ =>
            match note given name "" true with
            | .error stop => .error stop
            | .ok given => scan forms commands given rest
        | some ⟨⟨name, _, .takesValue isAccepted⟩, some value⟩ =>
            match note given name value (isAccepted value) with
            | .error stop => .error stop
            | .ok given => scan forms commands given rest
        | some ⟨⟨name, _, .takesValue isAccepted⟩, none⟩ =>
            match rest with
            | [] => .error .misuse
            | value :: later =>
                match note given name value (isAccepted value && !looksLikeOption value) with
                | .error stop => .error stop
                | .ok given => scan forms commands given later

end Unnest.CommandLine
