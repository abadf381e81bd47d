import FlowDiagram.Json.Basic
import FlowDiagram.Text.Numeral
import FlowDiagram.Text.Quoted

/-!
# Schemas

A schema declares what a JSON value has to be and what is read from it: a text, one of some names,
null or something else, a list, or an object with fields. The validator that reads values by schemas
is a library of its own. It is a parameter here, and `Validator.Documented` says all that is assumed
of it. `Validator.standard` keeps to that, and is what programs run with.
-/

namespace FlowDiagram.Payload
open FlowDiagram.Text

variable {α β : Type}

/-! ### Faults -/

/-- One step on the way to a place in a payload. -/
inductive Step
  | field (name : Text)
  | item (index : Nat)
  deriving DecidableEq

/-- The kinds of error that the validation library has for the schemas below. -/
inductive Defect
  | notModel (title : Text)
  | notList
  | missing
  | notText
  /-- The text holds half a pair of surrogates, which cannot be decoded. -/
  | notUnicode
  | tooShort (minLength : Nat)
  | notNamed (names : List Text)
  deriving DecidableEq

structure Fault where
  place : List Step
  defect : Defect
  deriving DecidableEq

namespace Defect

def code : Defect → Text
  | notModel _ => "model_type"
  | notList => "list_type"
  | missing => "missing"
  | notText => "string_type"
  | notUnicode => "string_unicode"
  | tooShort _ => "string_too_short"
  | notNamed _ => "literal_error"

/-- Quoted names with commas between them, and `or` before the last. -/
def choices (names : List Text) : Text :=
  let quoted := names.map quoted
  match quoted.dropLast, quoted.getLast? with
  | [], last? => last?.getD []
  | first :: rest, last? => joinWith ", " (first :: rest) ++ " or " ++ last?.getD []

def message : Defect → Text
  | notModel title => "Input should be a valid dictionary or instance of " ++ title
  | notList => "Input should be a valid list"
  | missing => "Field required"
  | notText => "Input should be a valid string"
  | notUnicode => "Input should be a valid string, unable to parse raw data as a unicode string"
  | tooShort minLength =>
    "String should have at least " ++ ofNat minLength ++
      (if minLength = 1 then " character" else " characters")
  | notNamed names => "Input should be " ++ choices names

end Defect

/-! ### Values with faults -/

/-- A value, or all the faults that keep it from being one. -/
abbrev Checked (α : Type) := Except (List Fault) α

namespace Checked

def fault (place : List Step) (defect : Defect) : Checked α := .error [⟨place, defect⟩]

/-- Both values, or the faults of the first and then of the second. -/
def both (a : Checked α) (b : Checked β) : Checked (α × β) :=
  match a, b with
  | .ok x, .ok y => .ok (x, y)
  | .ok _, .error faults => .error faults
  | .error faults, .ok _ => .error faults
  | .error faults, .error more => .error (faults ++ more)

/-- The same value one step deeper in the payload. -/
def within (step : Step) (a : Checked α) : Checked α :=
  match a with
  | .ok x => .ok x
  | .error faults => .error (faults.map fun f => { f with place := step :: f.place })

/-- All values of a list whose first item has the given index. -/
def items (read : Json → Checked α) : Nat → List Json → Checked (List α)
  | _, [] => .ok []
  | index, j :: js =>
    (both (within (.item index) (read j)) (items read (index + 1) js)).map fun (x, xs) => x :: xs

end Checked

/-! ### Schemas -/

mutual

/-- What a value is declared to be, and the type of what is read from it. -/
inductive Schema : Type → Type 1
  /-- A text of at least so many characters. Without a bound it may be any text. -/
  | text (minLength : Nat) : Schema Text
  | oneOf (names : List Text) : Schema {t : Text // t ∈ names}
  /-- Null, or what another schema declares. -/
  | optional {α : Type} (schema : Schema α) : Schema (Option α)
  | list {α : Type} (item : Schema α) : Schema (List α)
  /-- The value is changed before it is checked. -/
  | before {α : Type} (change : Json → Json) (schema : Schema α) : Schema α
  /-- An object. Its fields are found by their aliases, and `byName` by their names as well. -/
  | model {α : Type} (title : Text) (byName : Bool) (fields : Fields α) : Schema α

/-- The fields of an object in the order of their declaration. A field without a default has to be
there. -/
inductive Fields : Type → Type 1
  | none : Fields Unit
  | and {α β : Type} (name : Text) (alias? : Option Text) (default? : Option α) (schema : Schema α)
      (rest : Fields β) : Fields (α × β)

end

/-- The entry of an object for a field, with the key that it has there: its alias, or its name where
it has no alias or is looked for `byName` after the alias. -/
def entryOf? (byName : Bool) (name : Text) (alias? : Option Text) (given : List (Text × Json)) :
    Option (Text × Json) :=
  match Json.valueOf? (alias?.getD name) given with
  | some j => some (alias?.getD name, j)
  | none => if byName then (Json.valueOf? name given).map fun j => (name, j) else none

/-! ### Validators -/

/-- A validator reads a value by a schema, or says what is wrong with it. -/
structure Validator where
  validate {α : Type} (schema : Schema α) (j : Json) : Checked α

/-- What is documented of the validation library, for one kind of schema after the other. Nothing
else is assumed of a validator. -/
structure Validator.Documented (v : Validator) : Prop where
  /-- Nothing is turned into a text. -/
  text_other {minLength : Nat} {j : Json} (h : ∀ t, j ≠ .text t) :
    v.validate (.text minLength) j = .fault [] .notText
  /-- A text whose length does not matter is passed on as it is, be it Unicode or not. -/
  text_unbounded (t : Text) : v.validate (.text 0) (.text t) = .ok t
  /-- A text is decoded before its characters are counted. -/
  text_notUnicode {minLength : Nat} {t : Text} (hbound : minLength ≠ 0) (h : ¬ IsUnicode t) :
    v.validate (.text minLength) (.text t) = .fault [] .notUnicode
  text_short {minLength : Nat} {t : Text} (h : IsUnicode t) (hlength : t.length < minLength) :
    v.validate (.text minLength) (.text t) = .fault [] (.tooShort minLength)
  text_long {minLength : Nat} {t : Text} (h : IsUnicode t) (hlength : minLength ≤ t.length) :
    v.validate (.text minLength) (.text t) = .ok t
  oneOf_other {names : List Text} {j : Json} (h : ∀ t, j ≠ .text t) :
    v.validate (.oneOf names) j = .fault [] (.notNamed names)
  /-- A text is decoded before it is looked for among the names. -/
  oneOf_notUnicode {names : List Text} {t : Text} (h : ¬ IsUnicode t) :
    v.validate (.oneOf names) (.text t) = .fault [] .notUnicode
  oneOf_unknown {names : List Text} {t : Text} (h : IsUnicode t) (hnames : t ∉ names) :
    v.validate (.oneOf names) (.text t) = .fault [] (.notNamed names)
  /-- Names are compared as they are, with upper and lower case apart. -/
  oneOf_known {names : List Text} {t : Text} (h : IsUnicode t) (hnames : t ∈ names) :
    v.validate (.oneOf names) (.text t) = .ok ⟨t, hnames⟩
  optional_null {α : Type} {schema : Schema α} : v.validate (.optional schema) .null = .ok none
  optional_other {α : Type} {schema : Schema α} {j : Json} (h : j ≠ .null) :
    v.validate (.optional schema) j = (v.validate schema j).map some
  list_other {α : Type} {item : Schema α} {j : Json} (h : ∀ js, j ≠ .array js) :
    v.validate (.list item) j = .fault [] .notList
  /-- Every item is checked, also after a faulty one, and faults are told with the index. -/
  list_array {α : Type} {item : Schema α} {js : List Json} :
    v.validate (.list item) (.array js) = .items (v.validate item) 0 js
  before {α : Type} {change : Json → Json} {schema : Schema α} {j : Json} :
    v.validate (.before change schema) j = v.validate schema (change j)
  model_other {α : Type} {title : Text} {byName : Bool} {fields : Fields α} {j : Json}
    (h : ∀ given, j ≠ .object given) :
    v.validate (.model title byName fields) j = .fault [] (.notModel title)
  /-- Entries that no field asks for are ignored. -/
  model_none {title : Text} {byName : Bool} {given : List (Text × Json)} :
    v.validate (.model title byName .none) (.object given) = .ok ()
  /-- A field that is there is checked, and so are all after it. Faults are told with the key under
  which the field was found. -/
  model_given {α β : Type} {title : Text} {byName : Bool} {name : Text} {alias? : Option Text}
    {default? : Option α} {schema : Schema α} {rest : Fields β} {given : List (Text × Json)}
    {key : Text} {j : Json} (h : entryOf? byName name alias? given = some (key, j)) :
    v.validate (.model title byName (.and name alias? default? schema rest)) (.object given) =
      .both ((v.validate schema j).within (.field key))
        (v.validate (.model title byName rest) (.object given))
  /-- A default is taken as it is, without a check. -/
  model_default {α β : Type} {title : Text} {byName : Bool} {name : Text} {alias? : Option Text}
    {default : α} {schema : Schema α} {rest : Fields β} {given : List (Text × Json)}
    (h : entryOf? byName name alias? given = none) :
    v.validate (.model title byName (.and name alias? (some default) schema rest)) (.object given) =
      .both (.ok default) (v.validate (.model title byName rest) (.object given))
  model_missing {α β : Type} {title : Text} {byName : Bool} {name : Text} {alias? : Option Text}
    {schema : Schema α} {rest : Fields β} {given : List (Text × Json)}
    (h : entryOf? byName name alias? given = none) :
    v.validate (.model title byName (.and name alias? none schema rest)) (.object given) =
      .both (.fault [.field (alias?.getD name)] .missing)
        (v.validate (.model title byName rest) (.object given))

/-! ### The standard validator -/

def checkText (minLength : Nat) : Json → Checked Text
  | .text t =>
    if minLength = 0 then .ok t
    else if ¬ IsUnicode t then .fault [] .notUnicode
    else if t.length < minLength then .fault [] (.tooShort minLength)
    else .ok t
  | _ => .fault [] .notText

def checkName (names : List Text) : Json → Checked {t : Text // t ∈ names}
  | .text t =>
    if ¬ IsUnicode t then .fault [] .notUnicode
    else if h : t ∈ names then .ok ⟨t, h⟩
    else .fault [] (.notNamed names)
  | _ => .fault [] (.notNamed names)

mutual

def Schema.check : {α : Type} → Schema α → Json → Checked α
  | _, .text minLength, j => checkText minLength j
  | _, .oneOf names, j => checkName names j
  | _, .optional schema, j =>
    match j with
    | .null => .ok none
    | j => (schema.check j).map some
  | _, .list item, j =>
    match j with
    | .array js => .items item.check 0 js
    | _ => .fault [] .notList
  | _, .before change schema, j => schema.check (change j)
  | _, .model title byName fields, j =>
    match j with
    | .object given => fields.check byName given
    | _ => .fault [] (.notModel title)

def Fields.check : {α : Type} → Fields α → (byName : Bool) → List (Text × Json) → Checked α
  | _, .none, _, _ => .ok ()
  | _, .and name alias? default? schema rest, byName, given =>
    let first :=
      match entryOf? byName name alias? given, default? with
      | some (key, j), _ => (schema.check j).within (.field key)
      | none, some default => .ok default
      | none, none => .fault [.field (alias?.getD name)] .missing
    .both first (rest.check byName given)

end

def Validator.standard : Validator := ⟨Schema.check⟩

end FlowDiagram.Payload
