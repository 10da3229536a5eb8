import TheokitGateways.Js.Text

/-!
# Values that may be thrown

JavaScript throws any value, and a handler that inspects what it caught may run
code of that value: a getter, a proxy's trap, a conversion to a string. `JsAny`
holds what the sources observe of a value; where looking at it can throw, the
observation is an `Except`. Every part is looked at once at most, so one answer
for each says all there is to say.
-/

namespace TheokitGateways.Js

/-- What `typeof` says of an object, and whether it is the constructor `Error`. -/
inductive ObjectKind where
  | plain | function | errorConstructor
  deriving DecidableEq

inductive JsAny where
  | undefined
  | null
  /-- A boolean, a number, a bigint or a string: its `typeof` and its text. -/
  | primitive (type text : JsString)
  | symbol (description : JsString)
  /-- An object: whether it is `instanceof Error`, its members, and its text as a string. -/
  | object (kind : ObjectKind) (isError : Except JsAny Bool)
      (member : JsString → Except JsAny JsAny) (text : Except JsAny JsString)

namespace JsAny

def string (s : JsString) : JsAny := .primitive (js "string") s

/-- An object whose members are plain data. -/
def ofMembers (kind : ObjectKind) (isError : Bool) (members : List (JsString × JsAny))
    (text : JsString) : JsAny :=
  .object kind (.ok isError) (fun key => .ok ((members.lookup key).getD .undefined)) (.ok text)

/-- The constructor `Error`. -/
def errorConstructor : JsAny := ofMembers .errorConstructor false [] (js "function Error()")

/-- An error of a class the engine knows, as `new Class(message)` makes it. -/
def error (className message : JsString) : JsAny :=
  ofMembers .plain true
    [(js "name", string className), (js "message", string message),
      (js "constructor", if className = js "Error" then errorConstructor
        else ofMembers .function false [] className)]
    (className ++ js ": " ++ message)

/-- An object of which nothing can be read. -/
def sealed (thrown : JsAny) : JsAny :=
  .object .plain (.error thrown) (fun _ => .error thrown) (.error thrown)

/-- `typeof v`. -/
def typeOf : JsAny → JsString
  | .undefined => js "undefined"
  | .null => js "object"
  | .primitive type _ => type
  | .symbol _ => js "symbol"
  | .object .plain .. => js "object"
  | .object .. => js "function"

/-- `v.key`, for a key that no primitive has. -/
def read (v : JsAny) (key : JsString) : Except JsAny JsAny :=
  match v with
  | .undefined =>
    .error (error (js "TypeError")
      (js "Cannot read properties of undefined (reading '" ++ key ++ js "')"))
  | .null =>
    .error (error (js "TypeError")
      (js "Cannot read properties of null (reading '" ++ key ++ js "')"))
  | .primitive .. | .symbol _ => .ok .undefined
  | .object _ _ member _ => member key

/-- `v?.key`. -/
def readOptional (v : JsAny) (key : JsString) : Except JsAny JsAny :=
  match v with
  | .undefined | .null => .ok .undefined
  | v => v.read key

/-- `v instanceof Error`. -/
def instanceOfError : JsAny → Except JsAny Bool
  | .object _ isError _ _ => isError
  | _ => .ok false

def isErrorConstructor : JsAny → Bool
  | .object .errorConstructor .. => true
  | _ => false

/-- The string a value is. -/
def asString : JsAny → Option JsString
  | .primitive type text => if type = js "string" then some text else none
  | _ => none

/-- `String(v)`. -/
def toStr : JsAny → Except JsAny JsString
  | .undefined => .ok (js "undefined")
  | .null => .ok (js "null")
  | .primitive _ text => .ok text
  | .symbol description => .ok (js "Symbol(" ++ description ++ js ")")
  | .object _ _ _ text => text

/-- A value between `${` and `}` of a template, which takes no symbol. -/
def interpolate (v : JsAny) : Except JsAny JsString :=
  match v with
  | .symbol _ =>
    .error (error (js "TypeError") (js "Cannot convert a Symbol value to a string"))
  | v => v.toStr

end JsAny

end TheokitGateways.Js
