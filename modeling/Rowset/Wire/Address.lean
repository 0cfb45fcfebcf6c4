import Rowset.Text.Blank
import Rowset.Text.Percent
import Rowset.Wire.HostAddress

/-!
# The wire: addresses of databases

An address is a list of settings, each a key and a value with `=` between them, or it is a locator
with a scheme: credentials, hosts, a database and settings, all of which can be left out. What
stands between the marks of a locator is percent-encoded. Every key has to be known, and a value has
to be one that its key takes.
-/

namespace Rowset.Wire.Address

open Text (splitAt)

/-! ### Settings -/

/-- Holds of the texts that are ports, of which each may be left empty. -/
def arePorts (value : List Char) : Bool :=
  (splitAt ',' value).all fun port => port.isEmpty || (Text.readWord? 16 port).isSome

/-- Holds of the texts that are addresses of hosts. -/
def areHostAddresses (value : List Char) : Bool :=
  (splitAt ',' value).all HostAddress.isValid

/-- Holds of the texts of signed words. -/
def isSigned (value : List Char) : Bool :=
  (Text.readInt64? value).isSome

/-- Holds of the texts of unsigned words. -/
def isUnsigned (width : Nat) (value : List Char) : Bool :=
  (Text.readWord? width value).isSome

/-- Holds of some words. -/
def isOneOf (words : List String) (value : List Char) : Bool :=
  words.contains (String.ofList value)

/-- The values that a key takes, if it is known. -/
def domain? : String → Option (List Char → Bool)
  | "user" | "password" | "dbname" | "options" | "application_name" | "host" => some fun _ => true
  | "hostaddr" => some areHostAddresses
  | "port" => some arePorts
  | "connect_timeout" | "tcp_user_timeout" | "keepalives_idle" | "keepalives_interval" =>
    some isSigned
  | "keepalives" => some (isUnsigned 64)
  | "keepalives_retries" => some (isUnsigned 32)
  | "sslmode" => some (isOneOf ["disable", "prefer", "require"])
  | "sslnegotiation" => some (isOneOf ["postgres", "direct"])
  | "target_session_attrs" => some (isOneOf ["any", "read-write", "read-only"])
  | "channel_binding" => some (isOneOf ["disable", "prefer", "require"])
  | "load_balance_hosts" => some (isOneOf ["disable", "random"])
  | _ => none

/-- Holds of the settings that an address can have. -/
def isSetting (key value : List Char) : Bool :=
  (domain? (String.ofList key)).any fun holds => holds value

/-- Takes a value from the front, up to a blank. A backslash takes the character behind it and does
not belong to the value itself. -/
def takePlain : List Char → List Char × List Char
  | [] => ([], [])
  | ['\\'] => ([], [])
  | '\\' :: c :: cs =>
    let (value, rest) := takePlain cs
    (c :: value, rest)
  | c :: cs =>
    if Text.isBlank c then ([], c :: cs)
    else
      let (value, rest) := takePlain cs
      (c :: value, rest)

/-- Takes a value from the front, up to the closing quote. -/
def takeQuoted? : List Char → Option (List Char × List Char)
  | [] => none
  | '\'' :: cs => some ([], cs)
  | '\\' :: c :: cs => (takeQuoted? cs).map fun (value, rest) => (c :: value, rest)
  | c :: cs => (takeQuoted? cs).map fun (value, rest) => (c :: value, rest)

/-- Takes a setting's value from the front; only a quoted one can be empty. -/
def takeValue? : List Char → Option (List Char × List Char)
  | '\'' :: cs => takeQuoted? cs
  | cs =>
    let (value, rest) := takePlain cs
    if value.isEmpty then none else some (value, rest)

/-- Holds of the lists of settings, which end where no key stands; each round takes at least one
character. -/
def areSettings : Nat → List Char → Bool
  | 0, _ => false
  | fuel + 1, cs =>
    let cs := cs.dropWhile Text.isBlank
    let key := cs.takeWhile fun c => !Text.isBlank c && c != '='
    if key.isEmpty then true
    else
      match (cs.drop key.length).dropWhile Text.isBlank with
      | '=' :: cs =>
        match takeValue? (cs.dropWhile Text.isBlank) with
        | some (value, rest) => isSetting key value && areSettings fuel rest
        | none => false
      | _ => false

/-! ### Locators -/

/-- Splits a text at the first character of a kind, which begins the second part. -/
def splitBefore (ends : Char → Bool) (cs : List Char) : List Char × List Char :=
  (cs.takeWhile fun c => !ends c, cs.dropWhile fun c => !ends c)

/-- Holds of the percent-encoded texts. -/
def isEncoded (cs : List Char) : Bool :=
  (Text.percentDecoded? cs).isSome

/-- Holds of the credentials: a user and perhaps a secret, which can be of any bytes. -/
def areCredentials (cs : List Char) : Bool :=
  isEncoded (cs.takeWhile (· != ':'))

/-- Holds of the names of hosts: a path of any bytes, or a text. -/
def isHostName (cs : List Char) : Bool :=
  (Text.percentBytes cs).head? == some '/'.toUInt8 || isEncoded cs

/-- Holds of the ports of a host in a locator. -/
def areEncodedPorts (cs : List Char) : Bool :=
  (Text.percentDecoded? cs).any arePorts

/-- Holds of the hosts of a locator, each with a port or without one. The name of a host that has
colons itself stands in brackets. -/
def isHost : List Char → Bool
  | '[' :: cs =>
    let (name, rest) := splitBefore (· == ']') cs
    isHostName name &&
      match rest with
      | [_] => true
      | _ :: ':' :: port => areEncodedPorts port
      | _ => false
  | cs =>
    let (name, rest) := splitBefore (· == ':') cs
    isHostName name && areEncodedPorts (rest.drop 1)

/-- Holds of the percent-encoded settings of a locator. The name of a host in them is read as in
front of them. -/
def isEncodedSetting (key value : List Char) : Bool :=
  match Text.percentDecoded? key with
  | none => false
  | some key =>
    if key = "host".toList then isHostName value
    else (Text.percentDecoded? value).any (isSetting key)

/-- Holds of the settings behind a locator: a key up to `=` and a value up to `&`. -/
def isQuery (cs : List Char) : Bool :=
  match cs with
  | [] => true
  | c :: cs =>
    let key := (c :: cs).takeWhile (· != '=')
    let value := ((c :: cs).drop (key.length + 1)).takeWhile (· != '&')
    key.length ≤ cs.length && isEncodedSetting key value &&
      isQuery (cs.drop (key.length + value.length + 1))
termination_by cs.length
decreasing_by
  simp only [List.length_drop, List.length_cons]
  omega

/-- Holds of the locators, whose scheme has been taken off. -/
def isLocator (cs : List Char) : Bool :=
  let (credentials, rest) := splitBefore (· == '@') cs
  let (credentials, rest) := if rest.isEmpty then ([], credentials) else (credentials, rest.drop 1)
  let (hosts, rest) := splitBefore (fun c => c == '/' || c == '?') rest
  let (path, query) := splitBefore (· == '?') rest
  areCredentials credentials && (hosts.isEmpty || (splitAt ',' hosts).all isHost) &&
    isEncoded (path.drop 1) && isQuery (query.drop 1)

/-- The rest of a text behind a given start. -/
def behind? : List Char → List Char → Option (List Char)
  | [], cs => some cs
  | w :: ws, c :: cs => if w = c then behind? ws cs else none
  | _ :: _, [] => none

/-- **Holds of the addresses of databases.** -/
def isValid (address : String) : Bool :=
  let cs := address.toList
  match (behind? "postgres://".toList cs).or (behind? "postgresql://".toList cs) with
  | some rest => isLocator rest
  | none => areSettings (cs.length + 1) cs

end Rowset.Wire.Address
