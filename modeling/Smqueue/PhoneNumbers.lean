import Smqueue.ShortCodes

/-!
# Phone numbers

The texts that `shortcode_register` takes a phone number from, and the number that it registers.
-/

namespace Smqueue

/-- The characters that may stand around a number: spaces, parentheses, line breaks, and the
exclamation marks that are counted. -/
def separators : CString := [32, 40, 41, 13, 10, 33]

/-- A text without its separators. -/
def numberText (text : CString) : CString := text.filter (· ∉ separators)

/-- A plus, or none, and digits. -/
def isNumberText (number : CString) : Bool := (dropPlus number).all isdigit

/-- The number of a text is in the form and of the length that is asked for. -/
structure GoodNumber (cfg : Config) (text number : CString) : Prop where
  /-- There are digits behind an optional plus, and nothing else. -/
  form : ∃ digits, digits ≠ [] ∧ (∀ c ∈ digits, isdigit c = true) ∧
    (number = digits ∨ number = 43 :: digits)
  /-- It is what is in the text. -/
  content : number = numberText text
  /-- The number of digits is in its bounds, or these are overridden. -/
  digits : cfg.digitsOverride = true ∧ text.count 33 = 3 ∨
    cfg.digitsMin ≤ (number.countP isdigit : Int) ∧ (number.countP isdigit : Int) ≤ cfg.digitsMax
  /-- Nothing else is in the text. -/
  chars : ∀ c ∈ text, isdigit c = true ∨ c = 43 ∨ c ∈ separators
  /-- There is no digit and no other plus before a plus. -/
  plus : ∀ before after, text = before ++ 43 :: after → ∀ c ∈ before, isdigit c = false ∧ c ≠ 43

namespace SMq

/-- The number that `shortcode_register` calls `addUser` with, if it does. -/
def registerCall (env : Env) (imsi msgtext : CString) : Option CString :=
  let st := scanNumber {} msgtext
  match st.bad.or (digitsComplaint env.config st), env.hlr.getCLIDLocal imsi,
    env.hlr.getIMSI2 st.phonenum with
  | none, none, none => some st.phonenum
  | _, _, _ => none

/-- What `shortcode_register` returns after `addUser`. -/
def registerAnswer (env : Env) (q : SMq) (imsi number : CString) : HlrStatus → ShortCodeResult
  | .success => ⟨.register, [], q⟩
  | .delayed => ⟨.awaitRegister, [], q⟩
  | .failure => ⟨.reply, env.config.errorA ++ (str " " ++ number ++ str " ") ++ env.config.errorB ++
      imsi ++ str ".", q⟩
  | .tryAgain => ⟨.retryAfterDelay, [], q⟩

/-- `addUser` is called with good numbers only. -/
def RegistersGoodNumber (env : Env) (imsi text : CString) : Prop :=
  ∀ number, registerCall env imsi text = some number → GoodNumber env.config text number

/-- The length is overridden, the text has no digits, nothing else is wrong with it, and neither the
subscriber nor the empty number is known. -/
def OverridesNoDigits (env : Env) (imsi text : CString) : Prop :=
  env.config.digitsOverride = true ∧ text.count 33 = 3 ∧ (∀ c ∈ text, c = 43 ∨ c ∈ separators) ∧
    text.count 43 ≤ 1 ∧ env.hlr.getCLIDLocal imsi = none ∧
    env.hlr.getIMSI2 (numberText text) = none

end SMq

end Smqueue
