import Evse.Config.Persistence
import Evse.Lib.Buffer
import Mathlib.Data.List.TakeWhile

/-!
# Certificates from the console

`read_until_eot` of `cmd_config.c` reads characters into a buffer until EOT, a timeout or the end of the buffer, and its callers store what it has read, with the terminator. The loop leaves as soon as the buffer is full, and the terminator goes behind what was read all the same: with nothing left of the buffer, behind its end.

A turn of the loop is what the timer and the console answer in it, and either may answer as it likes. The verification of certificates comes from elsewhere and is a parameter.
-/

namespace Evse.Cli

open Config

def eot : UInt8 := 4
def lf : UInt8 := 10
def cr : UInt8 := 13

/-- Whether the timeout has expired, and the character that is there to be read. -/
structure Poll where
  expired : Bool
  input : Option UInt8
  deriving DecidableEq

/-! ### Reading -/

/-- The buffer, how much has been read into it, and what has been written back to the console. -/
structure Reading (memory : Nat → UInt8) where
  buf : Buffer memory
  i : Nat
  echo : List UInt8

section Reading

variable {memory : Nat → UInt8} (bufsize : Nat)

def Reading.store (s : Reading memory) (c : UInt8) : Reading memory where
  buf := s.buf.put s.i c
  i := s.i + 1
  echo := s.echo ++ [c]

/-- A character that is not EOT. -/
def Reading.take (s : Reading memory) (c : UInt8) : Reading memory :=
  if c = cr then if s.i > 0 ∧ s.buf.byte (s.i - 1) = lf then s else s.store lf
  else s.store c

/-- The loop, and whether it has been left after these turns. -/
def readLoop : List Poll → Reading memory → Reading memory × Bool
  | [], s => (s, decide ¬ s.i < bufsize)
  | poll :: polls, s =>
      if ¬ s.i < bufsize ∨ poll.expired then (s, true)
      else
        match poll.input with
        | none => readLoop polls s
        | some c => if c = eot then (s, true) else readLoop polls (s.take c)

/-- The turns of the loop, and whether the timeout has expired when it is asked for the last time. No length is returned as long as the loop goes on. -/
def readUntilEot (memory : Nat → UInt8) (polls : List Poll) (expired : Bool) : Reading memory × Option Nat :=
  let (s, left) := readLoop bufsize polls ⟨.found memory, 0, []⟩
  if left then ({ s with buf := s.buf.put s.i 0 }, some (if expired then 0 else s.i)) else (s, none)

end Reading

/-! ### The callers -/

section Callers

-- `pki_verify_cert` of a CA and a certificate
variable (pkiVerifyCert : List UInt8 → List UInt8 → Int) (mgr : Mgr) (memory : Nat → UInt8) (polls : List Poll)
  (expired : Bool)

/-- The configuration afterwards, and what is printed. There is a buffer if `malloc` gave one. -/
def changeCa (buf : Bool) : Mgr × Option String :=
  if !buf then (mgr, none)
  else
    match readUntilEot configX509Maxlen memory polls expired with
    | (_, none) => (mgr, none)
    | (s, some len) =>
        if len = 0 ∨ pkiVerifyCert (s.buf.front len) (s.buf.front len) ≠ 0 then
          (mgr, some "Failed to verify the certificate")
        else
          let (mgr, err) := configSet mgr "x509.ca" (s.buf.front (len + 1))
          (mgr, if err < 0 then some "Failed to save the CA" else none)

/-- What `config_get` writes to the buffer for the CA, up to the terminator. Nothing is written if there is no CA, so what the buffer was found with is read. -/
def storedCa (found : List UInt8) : List UInt8 :=
  let ca := ((configGet mgr "x509.ca" configX509Maxlen).1).getD []
  (ca ++ found.drop ca.length).takeWhile (· ≠ 0)

/-- The same for a certificate, which may be empty. `ca` is what the buffer for the CA was found with, if `malloc` gave one. -/
def changeCert (buf : Bool) (ca : Option (List UInt8)) : Mgr × Option String :=
  if !buf then (mgr, some "Failed to allocate buf")
  else
    match ca with
    | none => (mgr, some "Failed to allocate ca")
    | some found =>
        match readUntilEot configX509Maxlen memory polls expired with
        | (_, none) => (mgr, none)
        | (s, some len) =>
            let ca := storedCa mgr found
            if ca.length = 0 ∨ pkiVerifyCert ca (s.buf.front len) ≠ 0 then
              (mgr, some "Failed to verify the certificate")
            else
              let (mgr, err) := configSet mgr "x509.cert" (s.buf.front (len + 1))
              (mgr, if err < 0 then some "Failed to save the certificate" else none)

end Callers

/-! ### What is typed -/

/-- A carriage return is turned into a line feed, or dropped behind one. -/
def typed (text : List UInt8) (c : UInt8) : List UInt8 :=
  if c = cr then if text.getLast? = some lf then text else text ++ [lf] else text ++ [c]

def translate (stream : List UInt8) : List UInt8 := stream.foldl typed []

/-- The characters that come before EOT. -/
def beforeEot (polls : List Poll) : List UInt8 := (polls.filterMap (·.input)).takeWhile (· ≠ eot)

/-- Those that come before the timeout too. -/
def received (polls : List Poll) : List UInt8 := beforeEot (polls.takeWhile (!·.expired))

theorem prefix_typed (text : List UInt8) (c : UInt8) : text <+: typed text c := by
  rw [typed]
  split_ifs
  · exact List.prefix_refl text
  · exact List.prefix_append text _
  · exact List.prefix_append text _

theorem prefix_foldl_typed (text stream : List UInt8) : text <+: stream.foldl typed text := by
  induction stream generalizing text with
  | nil => exact List.prefix_refl text
  | cons c stream ih => exact (prefix_typed text c).trans (ih (typed text c))

theorem prefix_translate {stream stream' : List UInt8} (h : stream <+: stream') : translate stream <+: translate stream' := by
  obtain ⟨rest, rfl⟩ := h
  rw [translate, translate, List.foldl_append]
  exact prefix_foldl_typed _ rest

theorem prefix_received (polls : List Poll) : received polls <+: beforeEot polls := by
  have hpolls : polls.takeWhile (!·.expired) <+: polls := List.takeWhile_prefix _
  obtain ⟨rest, hrest⟩ := hpolls.filterMap (·.input)
  rw [received, beforeEot, beforeEot, ← hrest, List.takeWhile_append]
  split_ifs with hall
  · rw [List.takeWhile_eq_self_iff.2 (List.takeWhile_eq_self_iff.1 ((List.takeWhile_prefix _).eq_of_length hall))]
    exact List.prefix_append _ _
  · exact List.prefix_refl _

theorem received_cons (poll : Poll) (polls : List Poll) :
    received (poll :: polls) =
      if poll.expired then []
      else
        match poll.input with
        | none => received polls
        | some c => if c = eot then [] else c :: received polls := by
  obtain ⟨expired, input⟩ := poll
  cases expired with
  | true => rfl
  | false =>
      cases input with
      | none => rfl
      | some c =>
          by_cases hc : c = eot
          · simp [received, beforeEot, hc]
          · simp [received, beforeEot, hc]

/-! ### What has been read -/

section Read

variable {memory : Nat → UInt8} {bufsize : Nat} {text : List UInt8} {s : Reading memory}

/-- The text has been read, and nothing has been written outside the buffer. -/
structure Holds (bufsize : Nat) (text : List UInt8) (s : Reading memory) : Prop where
  length : s.i = text.length
  front : s.buf.front s.i = text
  within : s.buf.Within bufsize

theorem holds_start (memory : Nat → UInt8) (bufsize : Nat) :
    Holds bufsize [] (⟨.found memory, 0, []⟩ : Reading memory) where
  length := rfl
  front := rfl
  within := Buffer.within_found bufsize

theorem Holds.store (h : Holds bufsize text s) (hroom : s.i < bufsize) (c : UInt8) :
    Holds bufsize (text ++ [c]) (s.store c) where
  length := by
    rw [List.length_append, List.length_singleton, ← h.length]
    rfl
  front := by
    show (s.buf.put s.i c).front (s.i + 1) = _
    rw [Buffer.front_put_succ, h.front]
  within := Buffer.within_put.2 ⟨h.within, hroom⟩

/-- The byte before the place to write to is the last one of the text. -/
theorem Holds.last_iff (h : Holds bufsize text s) (c : UInt8) :
    s.i > 0 ∧ s.buf.byte (s.i - 1) = c ↔ text.getLast? = some c := by
  rw [← h.front]
  cases s.i with
  | zero => exact iff_of_false (fun hpos => Nat.lt_irrefl 0 hpos.1) (Option.some_ne_none c).symm
  | succ n =>
      rw [Buffer.front_succ, List.getLast?_append, List.getLast?_singleton, Option.some_or, Option.some.injEq]
      exact and_iff_right (Nat.succ_pos n)

theorem Holds.take (h : Holds bufsize text s) (hroom : s.i < bufsize) (c : UInt8) :
    Holds bufsize (typed text c) (s.take c) := by
  rw [Reading.take, typed]
  by_cases hcr : c = cr
  · rw [if_pos hcr, if_pos hcr]
    by_cases hlast : text.getLast? = some lf
    · rw [if_pos hlast, if_pos ((h.last_iff lf).2 hlast)]
      exact h
    · rw [if_neg hlast, if_neg (mt (h.last_iff lf).1 hlast)]
      exact h.store hroom lf
  · rw [if_neg hcr, if_neg hcr]
    exact h.store hroom c

/-- Where the loop is after its turns, having read the first part of what was received: all of it, unless the buffer is full, and then it has been left. -/
structure Leaves (bufsize : Nat) (full : List UInt8) (text : List UInt8) (r : Reading memory × Bool) : Prop where
  holds : Holds bufsize text r.1
  first : text <+: full
  whole : text.length < bufsize → text = full
  left : ¬ text.length < bufsize → r.2 = true

theorem Holds.readLoop (h : Holds bufsize text s) (polls : List Poll) :
    ∃ text', Leaves bufsize ((received polls).foldl typed text) text' (readLoop bufsize polls s) := by
  induction polls generalizing text s with
  | nil =>
      refine ⟨text, h, List.prefix_refl text, fun _ => rfl, fun hfull => ?_⟩
      rw [← h.length] at hfull
      exact decide_eq_true hfull
  | cons poll polls ih =>
      by_cases hroom : s.i < bufsize
      · rw [received_cons, Cli.readLoop]
        have hstop : Leaves bufsize text text (s, true) := ⟨h, List.prefix_refl text, fun _ => rfl, fun _ => rfl⟩
        cases hexpired : poll.expired with
        | true =>
            rw [if_pos rfl, if_pos (.inr rfl)]
            exact ⟨text, hstop⟩
        | false =>
            have hgo : ¬ (¬ s.i < bufsize ∨ false = true) := fun hstop => hstop.elim (· hroom) Bool.false_ne_true
            rw [if_neg Bool.false_ne_true, if_neg hgo]
            cases poll.input with
            | none => exact ih h
            | some c =>
                dsimp only
                by_cases hc : c = eot
                · rw [if_pos hc, if_pos hc]
                  exact ⟨text, hstop⟩
                · rw [if_neg hc, if_neg hc]
                  exact ih (h.take hroom c)
      · have hstopped : Cli.readLoop bufsize (poll :: polls) s = (s, true) := if_pos (.inl hroom)
        have hfull : ¬ text.length < bufsize := by rwa [← h.length]
        rw [hstopped]
        exact ⟨text, h, prefix_foldl_typed _ _, fun hlt => absurd hlt hfull, fun _ => rfl⟩

/-- Nothing is written outside the buffer, and behind a text that is read stands its terminator, in the buffer. -/
structure ReadsInto (bufsize : Nat) (memory : Nat → UInt8) (polls : List Poll) (expired : Bool) : Prop where
  within : ∀ i ∈ (readUntilEot bufsize memory polls expired).1.buf.written, i < bufsize
  reads : ∀ n, (readUntilEot bufsize memory polls expired).2 = some n → n ≠ 0 →
    (readUntilEot bufsize memory polls expired).1.buf.front n = (translate (beforeEot polls)).take n ∧
      (readUntilEot bufsize memory polls expired).1.buf.byte n = 0 ∧ n + 1 ≤ bufsize

theorem readsInto_iff (memory : Nat → UInt8) (polls : List Poll) (expired : Bool) :
    ReadsInto bufsize memory polls expired ↔ (translate (received polls)).length < bufsize := by
  obtain ⟨text, hholds, hfirst, hwhole, hleft⟩ := (holds_start memory bufsize).readLoop polls
  rw [← translate] at hfirst hwhole
  have hbegins := List.prefix_iff_eq_take.1 (hfirst.trans (prefix_translate (prefix_received polls)))
  have hread : readUntilEot bufsize memory polls expired =
      let r := readLoop bufsize polls ⟨.found memory, 0, []⟩
      if r.2 then ({ r.1 with buf := r.1.buf.put r.1.i 0 }, some (if expired then 0 else r.1.i)) else (r.1, none) := rfl
  generalize readLoop bufsize polls ⟨.found memory, 0, []⟩ = r at hholds hleft hread
  obtain ⟨s, left⟩ := r
  obtain ⟨hlength, hfront, hwithin⟩ := hholds
  dsimp only at hlength hfront hwithin hleft hread
  by_cases hroom : text.length < bufsize
  · refine iff_of_true ?_ (hwhole hroom ▸ hroom)
    cases left with
    | false =>
        rw [if_neg Bool.false_ne_true] at hread
        refine ⟨?_, fun n hn => ?_⟩
        · rw [hread]
          exact hwithin
        · rw [hread] at hn
          cases hn
    | true =>
        rw [if_pos rfl] at hread
        refine ⟨?_, fun n hn hne => ?_⟩
        · rw [hread]
          exact Buffer.within_put.2 ⟨hwithin, hlength ▸ hroom⟩
        · rw [hread] at hn ⊢
          cases expired with
          | true => exact absurd (Option.some.inj hn).symm hne
          | false =>
              have hn : s.i = n := Option.some.inj hn
              dsimp only
              rw [← hn, Buffer.front_put (Nat.le_refl _), hfront, hlength, ← hbegins]
              exact ⟨rfl, hlength ▸ Buffer.byte_put_self, hroom⟩
  · have hlong : ¬ (translate (received polls)).length < bufsize := by
      have hle := hfirst.length_le
      omega
    refine iff_of_false (fun hreads => ?_) hlong
    -- the loop was left with the buffer full, and the terminator went behind it
    have hwritten := hreads.within
    rw [hread, hleft hroom, if_pos rfl] at hwritten
    exact hroom (hlength ▸ (Buffer.within_put.1 hwritten).2)

/-- A text that is read and verified is stored with its terminator, if the store takes it. -/
structure StoresText (memory : Nat → UInt8) (polls : List Poll) (expired : Bool) : Prop where
  ca : ∀ (pkiVerifyCert : List UInt8 → List UInt8 → Int) (mgr : Mgr) n,
    (readUntilEot configX509Maxlen memory polls expired).2 = some n → n ≠ 0 →
      pkiVerifyCert ((translate (beforeEot polls)).take n) ((translate (beforeEot polls)).take n) = 0 →
        (mgr.nvs.write "x509.ca" ((translate (beforeEot polls)).take n ++ [0])).2 = true →
          (changeCa pkiVerifyCert mgr memory polls expired true).1.nvs.values "x509.ca" =
            some ((translate (beforeEot polls)).take n ++ [0])
  cert : ∀ (pkiVerifyCert : List UInt8 → List UInt8 → Int) (mgr : Mgr) (found : List UInt8) n,
    (readUntilEot configX509Maxlen memory polls expired).2 = some n → n ≠ 0 → storedCa mgr found ≠ [] →
      pkiVerifyCert (storedCa mgr found) ((translate (beforeEot polls)).take n) = 0 →
        (mgr.nvs.write "x509.cert" ((translate (beforeEot polls)).take n ++ [0])).2 = true →
          (changeCert pkiVerifyCert mgr memory polls expired true (some found)).1.nvs.values "x509.cert" =
            some ((translate (beforeEot polls)).take n ++ [0])

/-- What the callers verify is the text, and what they hand over is the text with its terminator, and fits. -/
theorem ReadsInto.data {polls : List Poll} {expired : Bool} (h : ReadsInto configX509Maxlen memory polls expired) {n : Nat}
    (hn : (readUntilEot configX509Maxlen memory polls expired).2 = some n) (hne : n ≠ 0) :
    ∃ s, readUntilEot configX509Maxlen memory polls expired = (s, some n) ∧
      s.buf.front n = (translate (beforeEot polls)).take n ∧
      s.buf.front (n + 1) = (translate (beforeEot polls)).take n ++ [0] ∧
      ((translate (beforeEot polls)).take n ++ [0]).length ≤ configX509Maxlen := by
  obtain ⟨hfront, hbyte, hfits⟩ := h.reads n hn hne
  have hdata := Buffer.front_succ (b := (readUntilEot configX509Maxlen memory polls expired).1.buf) n
  rw [hfront, hbyte] at hdata
  refine ⟨_, Prod.ext rfl hn, hfront, hdata, ?_⟩
  rw [← hdata, Buffer.length_front]
  exact hfits

theorem ReadsInto.storesText {polls : List Poll} {expired : Bool} (h : ReadsInto configX509Maxlen memory polls expired) :
    StoresText memory polls expired := by
  constructor
  · intro pkiVerifyCert mgr n hn hne hverified hwrites
    obtain ⟨s, hread, hfront, hdata, hfits⟩ := h.data hn hne
    have hset := configSet_custom "x509.ca" ⟨"x509.ca", configX509Maxlen⟩ rfl rfl hfits hwrites
    have hgood : ¬ (n = 0 ∨ pkiVerifyCert (s.buf.front n) (s.buf.front n) ≠ 0) := by
      rw [hfront, hverified]
      exact not_or.2 ⟨hne, not_not.2 rfl⟩
    rw [changeCa, hread, if_neg (by decide)]
    dsimp only
    rw [if_neg hgood, hdata]
    exact hset
  · intro pkiVerifyCert mgr found n hn hne hca hverified hwrites
    obtain ⟨s, hread, hfront, hdata, hfits⟩ := h.data hn hne
    have hset := configSet_custom "x509.cert" ⟨"x509.cert", configX509Maxlen⟩ rfl rfl hfits hwrites
    have hgood : ¬ ((storedCa mgr found).length = 0 ∨ pkiVerifyCert (storedCa mgr found) (s.buf.front n) ≠ 0) := by
      rw [hfront, hverified]
      exact not_or.2 ⟨mt List.length_eq_zero_iff.1 hca, not_not.2 rfl⟩
    rw [changeCert, hread, if_neg (by decide)]
    dsimp only
    rw [if_neg hgood, hdata]
    exact hset

/-- Nothing is written outside the buffer, and what is read and stored is the text with its terminator, exactly if what is typed before EOT and the timeout leaves a place in the buffer. -/
theorem certificate_input_iff (bufsize : Nat) (memory : Nat → UInt8) (polls : List Poll) (expired : Bool) :
    (ReadsInto bufsize memory polls expired ∧ (bufsize = configX509Maxlen → StoresText memory polls expired)) ↔
      (translate (received polls)).length < bufsize := by
  rw [← readsInto_iff memory polls expired]
  constructor
  · exact fun h => h.1
  · intro h
    refine ⟨h, ?_⟩
    rintro rfl
    exact h.storesText

/-- A character that fills what is left of the buffer. -/
theorem readLoop_replicate {c : UInt8} (heot : c ≠ eot) (hcr : c ≠ cr) {k : Nat} (hk : s.i + k = bufsize) :
    (readLoop bufsize (List.replicate k ⟨false, some c⟩) s).1.i = bufsize ∧
      (readLoop bufsize (List.replicate k ⟨false, some c⟩) s).2 = true := by
  induction k generalizing s with
  | zero =>
      rw [Nat.add_zero] at hk
      exact ⟨hk, decide_eq_true (Nat.not_lt.2 (Nat.le_of_eq hk.symm))⟩
  | succ k ih =>
      have hgo : ¬ (¬ s.i < bufsize ∨ false = true) := fun hstop => hstop.elim (· (by omega)) Bool.false_ne_true
      have hstore : s.take c = s.store c := if_neg hcr
      rw [List.replicate_succ, readLoop, if_neg hgo]
      dsimp only
      rw [if_neg heot, hstore]
      exact ih (by rw [← hk, Nat.add_comm k 1, ← Nat.add_assoc]; rfl)

/-- 2048 characters: the terminator goes behind the buffer, and a length without room for it is returned. -/
theorem full_buffer_overrun :
    configX509Maxlen ∈ (readUntilEot configX509Maxlen (fun _ => 0) (List.replicate 2048 ⟨false, some 65⟩) false).1.buf.written ∧
      (readUntilEot configX509Maxlen (fun _ => 0) (List.replicate 2048 ⟨false, some 65⟩) false).2 =
        some configX509Maxlen := by
  have hroom : (⟨.found fun _ => 0, 0, []⟩ : Reading fun _ => 0).i + 2048 = configX509Maxlen := rfl
  obtain ⟨hi, hleft⟩ := readLoop_replicate (show (65 : UInt8) ≠ eot by decide) (by decide) hroom
  rw [readUntilEot]
  generalize readLoop configX509Maxlen (List.replicate 2048 ⟨false, some 65⟩) ⟨.found fun _ => 0, 0, []⟩ = r at hi hleft
  obtain ⟨s, left⟩ := r
  dsimp only at hi hleft
  rw [hleft]
  refine ⟨List.mem_append_right _ ?_, congrArg some hi⟩
  rw [hi]
  exact List.mem_singleton_self _

end Read

end Evse.Cli
