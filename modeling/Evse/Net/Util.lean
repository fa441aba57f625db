import Evse.Lib.ByteBlock
import Evse.Lib.TextSearch

/-!
# Addresses as texts

`util.c` takes a URL apart without parsing it: each accessor searches for the first delimiter behind the scheme on its own. It validates IPv4 addresses, and reads and writes those of the link layer.

Texts are as they stand before their terminator; a buffer is a list of bytes. An `int` has 32 bits and wraps; a `long` has as many as the machine says.
-/

namespace Evse.Net

open CString

def EINVAL : Int := 22

def colon : UInt8 := 58
def slash : UInt8 := 47
def dot : UInt8 := 46

/-! ### URLs -/

inductive NetProtocol where
  | unknown | http | https | ws | wss | mqtt | mqtts | ftp | ftps | sftp
  deriving DecidableEq, Repr

def netGetDefaultPort : NetProtocol → UInt16
  | .http => 80
  | .https => 443
  | .ws => 80
  | .wss => 443
  | .mqtt => 1883
  | .mqtts => 8883
  | .ftp => 21
  | .ftps => 990
  | .sftp => 22
  | .unknown => 0

structure ProtoTbl where
  proto : NetProtocol
  pfx : Text
  deriving DecidableEq

def protoTbl : List ProtoTbl :=
  [⟨.http, ascii "http://"⟩,
    ⟨.https, ascii "https://"⟩,
    ⟨.ws, ascii "ws://"⟩,
    ⟨.wss, ascii "wss://"⟩,
    ⟨.mqtt, ascii "mqtt://"⟩,
    ⟨.mqtts, ascii "mqtts://"⟩,
    ⟨.ftp, ascii "ftp://"⟩,
    ⟨.ftps, ascii "ftps://"⟩,
    ⟨.sftp, ascii "sftp://"⟩]

section Url

variable (longBits : Nat) (url : Text) (bufsize : Nat)

def netGetProtocolFromUrl : NetProtocol :=
  match protoTbl.find? (·.pfx <+: url) with
  | some entry => entry.proto
  | none => .unknown

def netGetPortFromUrl : UInt16 :=
  match strstr (ascii "://") url with
  | none => 0
  | some p =>
      match strchr colon (p.drop 3) with
      | none => netGetDefaultPort (netGetProtocolFromUrl url)
      | some finish => UInt16.ofInt (strtol longBits finish.tail)

/-- `bufsize - 1`, a `size_t` of 32 bits. -/
def lastIndex : Nat := if bufsize = 0 then 2 ^ 32 - 1 else bufsize - 1

def netGetPathFromUrl : List UInt8 × Int :=
  let buf := List.replicate bufsize 0
  match strstr (ascii "://") url with
  | none => (buf, -EINVAL)
  | some p =>
      match strchr slash (p.drop 3) with
      | none => (buf.set 0 slash, 0)
      | some p => (strncpy buf p (min p.length (lastIndex bufsize)), 0)

/-- A known protocol has the text that is searched for. -/
def netGetHostFromUrl : List UInt8 × Int :=
  let buf := List.replicate bufsize 0
  if netGetProtocolFromUrl url = .unknown then (buf, -EINVAL)
  else
    let p := (strstr (ascii "://") url).getD []
    let finish := (strchr colon (p.drop 3)).getD ((strchr slash (p.drop 3)).getD [])
    (strncpy buf (p.drop 3) (min (p.length - finish.length - 3) (lastIndex bufsize)), 0)

end Url

/-! ### IPv4 addresses -/

/-- An `int` that wraps. -/
def wrap (x : Int) : Int := x.bmod (2 ^ 32)

/-- The loop of `net_is_ipv4_str_valid`, and what follows it. The string is read character by character: where addresses have 32 bits too, an index that wraps still names the next one. -/
def ipv4Loop : Text → Int → Int → Bool
  | [], num, dots => !(decide (num < 0 ∨ num > 255 ∨ dots ≠ 3))
  | c :: rest, num, dots =>
      if c = dot then
        if num < 0 ∨ num > 255 then false else ipv4Loop rest 0 (wrap (dots + 1))
      else if isDigit c then ipv4Loop rest (wrap (wrap (num * 10) + (c.toNat - 48))) dots
      else false

def netIsIpv4StrValid (ipstr : Text) : Bool := ipv4Loop ipstr 0 0

/-! ### Link layer addresses -/

def macAddrLen : Nat := 6

abbrev Mac := ByteBlock macAddrLen

/-- A loop over the characters that also converts the first six bytes, each before the characters it stands for are validated. -/
def macLoop (valid : Nat → Bool) (byte : Nat → UInt8) : List Nat → Mac → Bool × Mac
  | [], mac => (true, mac)
  | i :: rest, mac =>
      if !valid i then (false, mac)
      else macLoop valid byte rest (if i < macAddrLen then mac.put i [byte i] else mac)

section Mac

variable (longBits : Nat) (str : Text)

/-- `XX:XX:XX:XX:XX:XX` -/
def isColonFormat (i : Nat) : Bool := if i % 3 = 2 then str.getD i 0 = colon else isHex (str.getD i 0)

/-- `XXXXXXXXXXXX` -/
def isPlainFormat (i : Nat) : Bool := isHex (str.getD i 0)

def colonByte (i : Nat) : UInt8 := UInt8.ofInt (strtolHex longBits (str.drop (i * 3)))

def plainByte (i : Nat) : UInt8 := UInt8.ofInt (strtolHex longBits [str.getD (i * 2) 0, str.getD (i * 2 + 1) 0])

def netGetMacFromStr (mac : Mac) : Bool × Mac :=
  if str.length ≠ 17 ∧ str.length ≠ 12 then (false, mac)
  else
    let colons := macLoop (isColonFormat str) (colonByte longBits str)
      (if str.length = 17 then List.range str.length else []) mac
    if !colons.1 then colons
    else
      macLoop (isPlainFormat str) (plainByte longBits str)
        (if str.length = 12 then List.range str.length else []) colons.2

end Mac

/-- The text that the buffer has room for, and whether the whole one has seventeen characters. -/
def netStringifyMac (mac : Mac) (bufsize : Nat) : Bool × Text :=
  let formatted := [colon].intercalate (mac.bytes.map printHexByte)
  (formatted.length = 17, snprintfAt [] 0 bufsize formatted)

end Evse.Net
