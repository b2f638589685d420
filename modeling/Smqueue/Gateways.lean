import Smqueue.ShortCodes
import Smqueue.Lib.Shell

/-!
# Gateways

A message to the service centre may go out by mail or through a web server. Both ways are a command
line that is handed to a shell, made of the text of the message, its recipient and its sender.
-/

namespace Smqueue

/-! ## Command lines -/

/-- `convertText` -/
def convertText (src : CString) : CString := src.map fun c => if c = 32 then 43 else c

/-- `sprintf` with strings as arguments. What any other conversion does is not defined here. -/
def sprintf : CString → List CString → Option CString
  | [], _ => some []
  | 37 :: 115 :: format, arg :: args => (sprintf format args).map (arg ++ ·)
  | 37 :: 37 :: format, args => (sprintf format args).map (37 :: ·)
  | 37 :: _, _ => none
  | c :: format, args => (sprintf format args).map (c :: ·)

/-- A number of the configuration, cut down to an `int` and printed. -/
def printInt (n : Int) : CString := decimalInt (n.bmod (2 ^ 32))

/-- The text `c1` of `sendHTTP`, which is a format itself. -/
def httpFormat (cfg : Config) : CString :=
  str "wget -t " ++ printInt cfg.httpGatewayRetries ++ str " -T " ++ printInt cfg.httpGatewayTimeout ++
    str " -q -O - \"" ++ cfg.httpGatewayUrl ++ str "\""

/-- The command of `sendHTTP`, if the format is defined. The buffers are taken to be long enough. -/
def sendHTTP (cfg : Config) (destination message : CString) : Option CString :=
  sprintf (httpFormat cfg) [destination, convertText message]

/-- The command of `sendEMail`. -/
def sendEMail (address : CString) (subject : Option CString) : CString :=
  match subject with
  | some subject => str "mail -s \"" ++ subject ++ str "\" " ++ address
  | none => str "mail " ++ address

namespace SMq

/-- The number of the sender of a mail. -/
def mailSender (hlr : Hlr) (imsi : CString) : CString := (hlr.getCLIDLocal imsi).getD imsi

/-- The address that a text starts with. -/
def mailAddress (body : CString) : CString := body.takeWhile (· ≠ 32)

/-- The message goes through the web server. -/
def usesHTTPGateway (env : Env) (submit : TLSubmit) : Bool :=
  env.config.globalRelayIp.isEmpty && !env.config.httpGatewayUrl.isEmpty &&
    (env.hlr.getIMSI2 submit.da.digits).isNone

/-- The command that `submitSMS` hands to the shell, if there is one. -/
def submitCommand (env : Env) (imsi : CString) (submit : TLSubmit) (body : CString) :
    Option CString :=
  if startsWithEmail body then
    some (sendEMail (mailAddress body) (some (str "from " ++ mailSender env.hlr imsi)))
  else if usesHTTPGateway env submit then sendHTTP env.config submit.da.digits body
  else none

/-! ## What is meant -/

/-- The address of the web server with the recipient and the text of the message. -/
def gatewayUrl (env : Env) (submit : TLSubmit) (body : CString) : Option CString :=
  sprintf env.config.httpGatewayUrl [submit.da.digits, convertText body]

/-- The words that the command is meant to have. -/
def submitWords (env : Env) (imsi : CString) (submit : TLSubmit) (body : CString) :
    Option (List CString) :=
  if startsWithEmail body then
    some [str "mail", str "-s", str "from " ++ mailSender env.hlr imsi, mailAddress body]
  else if usesHTTPGateway env submit then
    (gatewayUrl env submit body).map fun url =>
      [str "wget", str "-t", printInt env.config.httpGatewayRetries, str "-T",
        printInt env.config.httpGatewayTimeout, str "-q", str "-O", str "-", url]
  else none

/-- The shell reads the command as a simple command with the words that are meant. -/
def CommandMeant (env : Env) (imsi : CString) (submit : TLSubmit) (body : CString) : Prop :=
  ∀ line, submitCommand env imsi submit body = some line →
    Shell.simpleCommand line = submitWords env imsi submit body

/-- The texts in the command stand for themselves. -/
def Quotable (env : Env) (imsi : CString) (submit : TLSubmit) (body : CString) : Prop :=
  if startsWithEmail body then
    Shell.verbatim (mailSender env.hlr imsi) = true ∧ Shell.bare (mailAddress body) = true
  else usesHTTPGateway env submit = true →
    ∀ url ∈ gatewayUrl env submit body, Shell.verbatim url = true

end SMq

end Smqueue
