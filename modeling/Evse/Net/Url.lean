import Evse.Net.Util

/-!
# What the accessors of a URL return

A URL is put together from a scheme of the table, a host, a port that may be absent and a path. The accessor of the path returns it. Those of the host and of the port look for the first colon behind the scheme, which is the one before the port if there is a port, and is in the path if only the path has one.
-/

namespace Evse.Net

open CString

/-- A decimal port number. -/
structure PortText where
  digits : Text
  ne : digits ≠ []
  decimal : digits.all isDigit = true
  pos : 1 ≤ digitsValue digits
  fits : digitsValue digits ≤ 65535

/-- The components of a URL. -/
structure UrlParts where
  scheme : ProtoTbl
  known : scheme ∈ protoTbl
  host : Text
  hostNe : host ≠ []
  hostPlain : colon ∉ host ∧ slash ∉ host ∧ 0 ∉ host
  port : Option PortText
  path : Text
  pathRooted : ∀ c ∈ path.head?, c = slash
  pathText : 0 ∉ path

namespace UrlParts

variable (u : UrlParts)

def portText : Text := (u.port.map fun port => colon :: port.digits).getD []

/-- What is behind the scheme. -/
def address : Text := u.host ++ u.portText ++ u.path

def text : Text := u.scheme.pfx ++ u.address

def portNumber : Nat := (u.port.map fun port => digitsValue port.digits).getD (netGetDefaultPort u.scheme.proto).toNat

def pathOrRoot : Text := if u.path = [] then [slash] else u.path

/-- The accessors succeed and return the components. -/
structure Reads (longBits hostSize pathSize : Nat) : Prop where
  host : (netGetHostFromUrl u.text hostSize).2 = 0 ∧ readText (netGetHostFromUrl u.text hostSize).1 = u.host
  port : (netGetPortFromUrl longBits u.text).toNat = u.portNumber
  path : (netGetPathFromUrl u.text pathSize).2 = 0 ∧ readText (netGetPathFromUrl u.text pathSize).1 = u.pathOrRoot

end UrlParts

/-! ### The scheme -/

/-- No prefix of the table begins another. -/
theorem pfx_injective : ∀ entry ∈ protoTbl, ∀ entry' ∈ protoTbl,
    entry.pfx <+: entry'.pfx ∨ entry'.pfx <+: entry.pfx → entry = entry' := by
  decide

theorem pfx_eq : ∀ entry ∈ protoTbl, colon ∉ entry.pfx.takeWhile (· ≠ colon) ∧
    entry.pfx = entry.pfx.takeWhile (· ≠ colon) ++ ascii "://" := by
  decide

theorem known_scheme : ∀ entry ∈ protoTbl, entry.proto ≠ .unknown := by decide

variable (u : UrlParts)

theorem netGetProtocolFromUrl_text : netGetProtocolFromUrl u.text = u.scheme.proto := by
  have hself : u.scheme.pfx <+: u.text := List.prefix_append _ _
  have hfind : protoTbl.find? (·.pfx <+: u.text) = some u.scheme := by
    cases hcases : protoTbl.find? (·.pfx <+: u.text) with
    | none => exact absurd (decide_eq_true hself) (by simpa using List.find?_eq_none.1 hcases u.scheme u.known)
    | some entry =>
        have hbegins : entry.pfx <+: u.text := by simpa using List.find?_some hcases
        have heq := pfx_injective entry (List.mem_of_find?_eq_some hcases) u.scheme u.known
          (List.prefix_or_prefix_of_prefix hbegins hself)
        rw [heq]
  rw [netGetProtocolFromUrl, hfind]

/-- What the accessors find behind the scheme. -/
theorem strstr_text : strstr (ascii "://") u.text = some (ascii "://" ++ u.address) := by
  obtain ⟨hcolon, heq⟩ := pfx_eq u.scheme u.known
  have hfound : strstr (colon :: ascii "//")
      (u.scheme.pfx.takeWhile (· ≠ colon) ++ colon :: ascii "//" ++ u.address) =
        some (colon :: ascii "//" ++ u.address) := strstr_append hcolon
  have htext : u.text = u.scheme.pfx.takeWhile (· ≠ colon) ++ colon :: ascii "//" ++ u.address := by
    conv_lhs => rw [UrlParts.text, heq]
    rfl
  rw [htext]
  exact hfound

/-- Every accessor skips the three characters. -/
theorem drop_separator (text : Text) : (ascii "://" ++ text).drop 3 = text := rfl

/-! ### The components -/

theorem portText_eq : u.portText = [] ∧ u.port = none ∨
    ∃ port, u.port = some port ∧ u.portText = colon :: port.digits := by
  cases hport : u.port with
  | none => exact .inl ⟨by rw [UrlParts.portText, hport]; rfl, rfl⟩
  | some port => exact .inr ⟨port, rfl, by rw [UrlParts.portText, hport]; rfl⟩

theorem path_eq : u.path = [] ∨ ∃ rest, u.path = slash :: rest := by
  cases hpath : u.path with
  | nil => exact .inl rfl
  | cons c rest =>
      have hc := u.pathRooted c (by rw [hpath]; rfl)
      exact .inr ⟨rest, by rw [hc]⟩

/-- A port has its colon and digits. -/
theorem not_mem_portText {c : UInt8} (hcolon : c ≠ colon) (hdigit : isDigit c = false) : c ∉ u.portText := by
  obtain ⟨hnone, -⟩ | ⟨port, -, hsome⟩ := portText_eq u
  · rw [hnone]
    exact List.not_mem_nil
  · rw [hsome, List.mem_cons, not_or]
    refine ⟨hcolon, fun hmem => ?_⟩
    have hport := List.all_eq_true.1 port.decimal _ hmem
    rw [hdigit] at hport
    exact Bool.false_ne_true hport

theorem slash_not_mem : slash ∉ u.host ++ u.portText := by
  rw [List.mem_append, not_or]
  exact ⟨u.hostPlain.2.1, not_mem_portText u (by decide) rfl⟩

theorem nul_not_mem_address : 0 ∉ u.address := by
  simp only [UrlParts.address, List.mem_append, not_or]
  exact ⟨⟨u.hostPlain.2.2, not_mem_portText u (by decide) rfl⟩, u.pathText⟩

/-- The path begins at the first slash. -/
theorem strchr_slash : strchr slash u.address = if u.path = [] then none else some u.path := by
  obtain hnone | ⟨rest, hsome⟩ := path_eq u
  · rw [if_pos hnone, UrlParts.address, hnone, List.append_nil]
    exact strchr_eq_none (slash_not_mem u)
  · rw [if_neg (by rw [hsome]; exact List.cons_ne_nil _ _), UrlParts.address, hsome]
    exact strchr_append (slash_not_mem u)

theorem lastIndex_eq {n bufsize : Nat} (h : n < bufsize) : n ≤ lastIndex bufsize := by
  rw [lastIndex, if_neg (by omega)]
  omega

/-- The accessor of the path is right whatever the path. -/
theorem reads_path {pathSize : Nat} (hsize : u.pathOrRoot.length < pathSize) :
    (netGetPathFromUrl u.text pathSize).2 = 0 ∧ readText (netGetPathFromUrl u.text pathSize).1 = u.pathOrRoot := by
  have hzeros : ∀ x ∈ List.replicate pathSize (0 : UInt8), x = 0 := fun x hx => List.eq_of_mem_replicate hx
  simp only [netGetPathFromUrl, strstr_text, drop_separator, strchr_slash]
  rw [UrlParts.pathOrRoot] at hsize ⊢
  by_cases hpath : u.path = []
  · simp only [if_pos hpath] at hsize ⊢
    obtain ⟨n, rfl⟩ := Nat.exists_eq_succ_of_ne_zero (Nat.ne_of_gt (Nat.lt_of_le_of_lt (Nat.zero_le _) hsize))
    refine ⟨trivial, ?_⟩
    obtain ⟨n, rfl⟩ := Nat.exists_eq_succ_of_ne_zero (Nat.ne_of_gt (Nat.lt_of_succ_lt_succ hsize))
    rfl
  · simp only [if_neg hpath] at hsize ⊢
    rw [Nat.min_eq_left (lastIndex_eq hsize), readText_strncpy hzeros u.pathText, List.take_length]
    exact ⟨trivial, rfl⟩

/-- The accessor of the host copies what is before the delimiter it finds. -/
theorem reads_host (hostSize : Nat) {before finish : Text} (hsplit : u.address = before ++ finish)
    (hfinish : (strchr colon u.address).getD ((strchr slash u.address).getD []) = finish) :
    (netGetHostFromUrl u.text hostSize).2 = 0 ∧
      readText (netGetHostFromUrl u.text hostSize).1 = before.take (lastIndex hostSize) := by
  have hzeros : ∀ x ∈ List.replicate hostSize (0 : UInt8), x = 0 := fun x hx => List.eq_of_mem_replicate hx
  have hknown : netGetProtocolFromUrl u.text ≠ .unknown := by
    rw [netGetProtocolFromUrl_text]
    exact known_scheme _ u.known
  have hlength : (ascii "://" ++ u.address).length - finish.length - 3 = before.length := by
    have hscheme : (ascii "://").length = 3 := rfl
    rw [hsplit, List.length_append, List.length_append, hscheme]
    omega
  simp only [netGetHostFromUrl, if_neg hknown, strstr_text, Option.getD_some, drop_separator, hfinish, hlength]
  rw [readText_strncpy hzeros (nul_not_mem_address u), hsplit]
  refine ⟨trivial, ?_⟩
  rw [List.take_append_of_le_length (Nat.min_le_left _ _), Nat.min_comm, ← List.take_eq_take_min]

/-- A colon in the path, and no port: the host is followed by the path up to the colon, and the port is looked for behind it. -/
def ColonInPath : Prop := u.port = none ∧ colon ∈ u.path

instance : Decidable (ColonInPath u) := inferInstanceAs (Decidable (_ ∧ _))

theorem strchr_colon_of_port {port : PortText} (hport : u.port = some port) :
    strchr colon u.address = some (colon :: (port.digits ++ u.path)) := by
  have haddress : u.address = u.host ++ colon :: (port.digits ++ u.path) := by
    rw [UrlParts.address, UrlParts.portText, hport]
    simp
  rw [haddress]
  exact strchr_append u.hostPlain.1

theorem strchr_colon_of_none (hport : u.port = none) (hpath : colon ∉ u.path) : strchr colon u.address = none := by
  have haddress : u.address = u.host ++ u.path := by
    rw [UrlParts.address, UrlParts.portText, hport]
    simp
  rw [haddress]
  apply strchr_eq_none
  rw [List.mem_append, not_or]
  exact ⟨u.hostPlain.1, hpath⟩

/-- Digits of a port and the path behind them. -/
theorem port_of_digits {longBits : Nat} (hbits : 32 ≤ longBits) (port : PortText) :
    (UInt16.ofInt (strtol longBits (port.digits ++ u.path))).toNat = digitsValue port.digits := by
  have hrest : ∀ x ∈ u.path.head?, isDigit x = false := by
    intro x hx
    rw [u.pathRooted x hx]
    rfl
  have hfits := port.fits
  have hsaturate : saturate longBits (digitsValue port.digits) = digitsValue port.digits :=
    saturate_eq_self hbits (by omega) (by omega)
  rw [strtol_digits port.decimal port.ne hrest, hsaturate, UInt16.ofInt, UInt16.toNat_ofNat']
  omega

theorem reads_of_not_colonInPath {longBits hostSize pathSize : Nat} (hbits : 32 ≤ longBits)
    (hhost : u.host.length < hostSize) (hpath : u.pathOrRoot.length < pathSize) (h : ¬ ColonInPath u) :
    u.Reads longBits hostSize pathSize := by
  have hwhole : u.host.take (lastIndex hostSize) = u.host := List.take_of_length_le (lastIndex_eq hhost)
  cases hport : u.port with
  | none =>
      have hcolon := strchr_colon_of_none u hport fun hmem => h ⟨hport, hmem⟩
      refine ⟨?_, ?_, reads_path u hpath⟩
      · have hsplit : u.address = u.host ++ u.path := by
          rw [UrlParts.address, UrlParts.portText, hport]
          simp
        have hfinish : (strchr colon u.address).getD ((strchr slash u.address).getD []) = u.path := by
          rw [hcolon, strchr_slash]
          split
          · rename_i hnil
            rw [hnil]
            rfl
          · rfl
        have hread := reads_host u hostSize hsplit hfinish
        rwa [hwhole] at hread
      · simp only [netGetPortFromUrl, strstr_text, drop_separator, hcolon, netGetProtocolFromUrl_text, UrlParts.portNumber, hport]
        rfl
  | some port =>
      have hcolon := strchr_colon_of_port u hport
      refine ⟨?_, ?_, reads_path u hpath⟩
      · have hsplit : u.address = u.host ++ colon :: (port.digits ++ u.path) := by
          rw [UrlParts.address, UrlParts.portText, hport]
          simp
        have hfinish : (strchr colon u.address).getD ((strchr slash u.address).getD []) =
            colon :: (port.digits ++ u.path) := by rw [hcolon, Option.getD_some]
        have hread := reads_host u hostSize hsplit hfinish
        rwa [hwhole] at hread
      · simp only [netGetPortFromUrl, strstr_text, drop_separator, hcolon, List.tail_cons, UrlParts.portNumber, hport,
          Option.map_some, Option.getD_some]
        exact port_of_digits u hbits port

/-- The path up to its colon is taken for part of the host, if there is room for a character of it. -/
theorem not_reads_of_colonInPath {longBits hostSize pathSize : Nat} (hsize : u.host.length + 1 < hostSize)
    (h : ColonInPath u) : ¬ u.Reads longBits hostSize pathSize := by
  obtain ⟨hport, hmem⟩ := h
  obtain ⟨before, behind, hpath, hfirst⟩ := List.eq_append_cons_of_mem hmem
  have hne : before ≠ [] := by
    intro hnil
    have hroot := u.pathRooted colon (by rw [hpath, hnil]; rfl)
    exact absurd hroot (by decide)
  have hsplit : u.address = u.host ++ before ++ colon :: behind := by
    rw [UrlParts.address, UrlParts.portText, hport, hpath]
    simp
  have hcolon : strchr colon u.address = some (colon :: behind) := by
    rw [hsplit]
    apply strchr_append
    rw [List.mem_append, not_or]
    exact ⟨u.hostPlain.1, hfirst⟩
  have hfinish : (strchr colon u.address).getD ((strchr slash u.address).getD []) = colon :: behind := by
    rw [hcolon, Option.getD_some]
  intro hreads
  have hhost := congrArg List.length (reads_host u hostSize hsplit hfinish).2
  have hroom := lastIndex_eq hsize
  have hbefore := List.length_pos_iff.2 hne
  rw [hreads.host.2, List.length_take, List.length_append] at hhost
  omega

/-- With buffers for the components: the accessors return them if there is a port or no colon in the path; and only then, but for a host's buffer that is just full. -/
theorem url_accessors_iff (u : UrlParts) {longBits hostSize pathSize : Nat} (hbits : 32 ≤ longBits)
    (hhost : u.host.length < hostSize) (hpath : u.pathOrRoot.length < pathSize) :
    (¬ ColonInPath u → u.Reads longBits hostSize pathSize) ∧
      (u.host.length + 1 < hostSize → (u.Reads longBits hostSize pathSize ↔ ¬ ColonInPath u)) := by
  have hright := reads_of_not_colonInPath u hbits hhost hpath
  exact ⟨hright, fun hsize => ⟨fun hreads hcolon => not_reads_of_colonInPath u hsize hcolon hreads, hright⟩⟩

/-- A host and a path that has a colon. -/
def timeOfDay (port : Option PortText) : UrlParts where
  scheme := ⟨.http, ascii "http://"⟩
  known := by decide
  host := ascii "csms"
  hostNe := by decide
  hostPlain := by decide
  port := port
  path := ascii "/log?t=12:34"
  pathRooted := fun _ hc => (Option.some.inj hc).symm
  pathText := by decide

def port9000 : PortText := ⟨ascii "9000", by decide, by decide, by decide, by decide⟩

theorem url_accessors_of_port : (timeOfDay (some port9000)).Reads 32 64 64 :=
  (url_accessors_iff (timeOfDay (some port9000)) (by decide) (by decide) (by decide)).1 (by decide)

/-- The host of `http://csms/log?t=12:34` is `csms/log?t=12`, and its port is 34. -/
theorem url_accessors_of_colon : (timeOfDay none).text = ascii "http://csms/log?t=12:34" ∧
    ¬ (timeOfDay none).Reads 32 64 64 ∧
    readText (netGetHostFromUrl (timeOfDay none).text 64).1 = ascii "csms/log?t=12" ∧
    netGetPortFromUrl 32 (timeOfDay none).text = 34 := by
  have hhost : readText (netGetHostFromUrl (timeOfDay none).text 64).1 = ascii "csms/log?t=12" := by decide
  refine ⟨by decide, ?_, hhost, by decide⟩
  intro hreads
  have hright := hreads.host.2
  rw [hhost] at hright
  exact absurd hright (by decide)

end Evse.Net
