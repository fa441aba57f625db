import Evse.Lib.Run
import Evse.Lib.RingBuffer
import Mathlib.Data.Nat.Find
import Mathlib.Tactic.Common

/-!
# Receiving messages

`ocpp_recv` of `adapter.c` and `decoder_json_decode`: bytes come from the server in pieces of any size, go through a ring buffer, and a JSON text is taken off its front. How many bytes a call takes off is what the decoder reports, and when the parser fails the decoder reports all of them. So a text that has not arrived as a whole when a call looks for it is lost.

cJSON is a parameter: which byte strings are JSON texts. `cJSON_ParseWithLengthOpts` finds the longest text the bytes begin with.
-/

namespace Evse.Ocpp

open StepRun

/-- `BUFSIZE`. -/
def bufsize : Nat := 2048

/-- What cJSON takes for a complete text. -/
structure Syntax where
  isText : List UInt8 → Bool
  nonempty : isText [] = false

/-- What one call of `ocpp_recv` returns: `-ENOENT`, `-ENOMSG`, `-EINVAL`, or what `decode` makes of the text. -/
inductive RecvResult where
  | noEntry | noMsg | invalid | decoded (text : List UInt8)
  deriving DecidableEq, Repr

/-- The receive queue, what the server has yet to deliver, and the texts that have been decoded. -/
structure Link where
  rxq : RingBuffer UInt8
  incoming : List UInt8
  decoded : List (List UInt8)

section Recv

variable (J : Syntax)

/-- `cJSON_ParseWithLengthOpts`: the end of the text, if there is one. -/
def cJsonParse (json : List UInt8) : Option Nat :=
  match Nat.findGreatest (fun n => J.isText (json.take n) = true) json.length with
  | 0 => none
  | n + 1 => some (n + 1)

/-- `decoder_json_decode`: the result and the bytes consumed. -/
def decoderJsonDecode (json : List UInt8) : RecvResult × Nat :=
  match cJsonParse J json with
  | none => (if json.length = 0 then .noMsg else .invalid, json.length)
  | some n => (.decoded (json.take n), n)

/-- `server_recv`: at most as much as asked for and as there is. -/
def serverRecv (available asked : Nat) (link : Link) : List UInt8 := link.incoming.take (min available asked)

/-- The loop of `ocpp_recv`. The list says how much the server has at each call, and nothing at the end of it. -/
def refill (cap : Nat) : List Nat → Link → Link
  | [], link => link
  | available :: calls, link =>
      if cap > bufsize then
        let data := serverRecv available bufsize link
        if data.length = 0 then link
        else
          refill (cap - data.length) calls
            { link with rxq := link.rxq.write data, incoming := link.incoming.drop data.length }
      else link

/-- The receive queue when `ocpp_recv` looks at it. -/
def refilled (link : Link) (calls : List Nat) : Link :=
  refill (link.rxq.capacity - link.rxq.length) calls link

def ocppRecv (link : Link) (calls : List Nat) : Link × RecvResult :=
  let link := refilled link calls
  let buf := link.rxq.peek bufsize
  if buf.length = 0 then (link, .noEntry)
  else
    let result := decoderJsonDecode J buf
    let link := { link with rxq := link.rxq.consume result.2 }
    match result.1 with
    | .decoded text => ({ link with decoded := link.decoded ++ [text] }, result.1)
    | _ => (link, result.1)

def recvStep (link : Link) (calls : List Nat) : Link := (ocppRecv J link calls).1

end Recv

/-- A stream of texts, each short enough for the buffer of `ocpp_recv`, and the capacity of the receive queue. -/
structure TextStream (J : Syntax) where
  capacity : Nat
  texts : List (List UInt8)
  valid : ∀ text ∈ texts, J.isText text = true ∧ text.length ≤ bufsize

variable {J : Syntax}

/-- Nothing has been received yet. -/
def TextStream.start (s : TextStream J) : Link := ⟨.create s.capacity, s.texts.flatten, []⟩

/-- The texts decoded are the first ones of the stream, and what is queued or still to come is the rest. -/
def Framed (texts : List (List UInt8)) (link : Link) : Prop :=
  ∃ rest, link.decoded ++ rest = texts ∧ link.rxq.content ++ link.incoming = rest.flatten

/-- Where the call finds something in the queue, the next text is there as a whole, and no longer text begins what the call looks at. -/
def Whole (J : Syntax) (texts : List (List UInt8)) (link : Link) (calls : List Nat) : Prop :=
  (refilled link calls).rxq.content ≠ [] →
    ∃ text, texts[link.decoded.length]? = some text ∧ text.length ≤ (refilled link calls).rxq.length ∧
      ∀ n, text.length < n → n ≤ ((refilled link calls).rxq.peek bufsize).length →
        J.isText (((refilled link calls).rxq.peek bufsize).take n) = false

/-! ### One call -/

/-- Refilling moves bytes into the queue and loses none. -/
theorem refill_stream (cap : Nat) (link : Link) (hcap : cap + link.rxq.length ≤ link.rxq.capacity)
    (calls : List Nat) :
    (refill cap calls link).rxq.content ++ (refill cap calls link).incoming = link.rxq.content ++ link.incoming ∧
      (refill cap calls link).decoded = link.decoded := by
  induction calls generalizing cap link with
  | nil => exact ⟨rfl, rfl⟩
  | cons available calls ih =>
      have hprefix : serverRecv available bufsize link ++ link.incoming.drop (serverRecv available bufsize link).length =
          link.incoming :=
        List.prefix_iff_eq_append.mp (List.take_prefix _ _)
      have hdata : (serverRecv available bufsize link).length ≤ bufsize := by
        rw [serverRecv, List.length_take]
        omega
      simp only [refill]
      split_ifs with hroom
      · exact ⟨rfl, rfl⟩
      · generalize serverRecv available bufsize link = data at hprefix hdata
        rw [RingBuffer.length] at hcap
        have hfits : link.rxq.content.length + data.length ≤ link.rxq.capacity := by omega
        have hwritten := link.rxq.write_content hfits
        have hcap' : cap - data.length + (link.rxq.write data).length ≤ (link.rxq.write data).capacity := by
          rw [RingBuffer.length, hwritten, List.length_append, RingBuffer.write_capacity]
          omega
        obtain ⟨hstream, hdecoded⟩ := ih (cap - data.length) ⟨link.rxq.write data, link.incoming.drop data.length, link.decoded⟩ hcap'
        refine ⟨?_, hdecoded⟩
        rw [hstream, hwritten, List.append_assoc, hprefix]
      · exact ⟨rfl, rfl⟩

theorem refilled_stream (link : Link) (calls : List Nat) :
    (refilled link calls).rxq.content ++ (refilled link calls).incoming = link.rxq.content ++ link.incoming ∧
      (refilled link calls).decoded = link.decoded := by
  have hfits := link.rxq.fits
  refine refill_stream _ link ?_ calls
  rw [RingBuffer.length]
  omega

/-- The parser finds the longest text. -/
theorem cJsonParse_eq_some {json : List UInt8} {n : Nat} (hn : 0 < n) :
    cJsonParse J json = some n ↔
      n ≤ json.length ∧ J.isText (json.take n) = true ∧
        ∀ k, n < k → k ≤ json.length → J.isText (json.take k) = false := by
  have hgreatest : cJsonParse J json = some n ↔
      Nat.findGreatest (fun n => J.isText (json.take n) = true) json.length = n := by
    rw [cJsonParse]
    generalize Nat.findGreatest (fun n => J.isText (json.take n) = true) json.length = m
    cases m with
    | zero => exact iff_of_false (by simp) (by omega)
    | succ m => simp
  rw [hgreatest, Nat.findGreatest_eq_iff]
  refine and_congr_right fun _ => and_congr ⟨fun h => h (by omega), fun h _ => h⟩ ?_
  exact forall_congr' fun k => forall_congr' fun _ => forall_congr' fun _ => iff_of_eq (Bool.not_eq_true _)

theorem cJsonParse_pos {json : List UInt8} {n : Nat} (h : cJsonParse J json = some n) : 0 < n := by
  rw [cJsonParse] at h
  split at h
  · cases h
  · cases h
    exact Nat.succ_pos _

section Call

variable {link : Link} {calls : List Nat}

theorem recv_empty (h : (refilled link calls).rxq.content = []) : recvStep J link calls = refilled link calls := by
  have hnone : ((refilled link calls).rxq.peek bufsize).length = 0 := by
    rw [RingBuffer.peek, h]
    rfl
  rw [recvStep, ocppRecv, if_pos hnone]

theorem peek_length_ne (h : (refilled link calls).rxq.content ≠ []) :
    ((refilled link calls).rxq.peek bufsize).length ≠ 0 := by
  have hpos : 0 < (refilled link calls).rxq.content.length := List.length_pos_iff.mpr h
  rw [RingBuffer.peek, List.length_take, bufsize]
  omega

/-- A text that is found is taken off the queue. -/
theorem recv_text (h : (refilled link calls).rxq.content ≠ []) {n : Nat}
    (hparse : cJsonParse J ((refilled link calls).rxq.peek bufsize) = some n) :
    recvStep J link calls =
      { refilled link calls with
        rxq := (refilled link calls).rxq.consume n
        decoded := (refilled link calls).decoded ++ [((refilled link calls).rxq.peek bufsize).take n] } := by
  simp only [recvStep, ocppRecv, if_neg (peek_length_ne h), decoderJsonDecode, hparse]

/-- If none is found, everything the call looked at is. -/
theorem recv_none (h : (refilled link calls).rxq.content ≠ [])
    (hparse : cJsonParse J ((refilled link calls).rxq.peek bufsize) = none) :
    recvStep J link calls =
      { refilled link calls with
        rxq := (refilled link calls).rxq.consume ((refilled link calls).rxq.peek bufsize).length } := by
  simp only [recvStep, ocppRecv, if_neg (peek_length_ne h), decoderJsonDecode, hparse]

/-- The next text is decoded and nothing else, if it is there as a whole. -/
theorem recv_whole {text : List UInt8} {rest : List (List UInt8)} (hvalid : J.isText text = true)
    (hshort : text.length ≤ bufsize) (hstream : link.rxq.content ++ link.incoming = (text :: rest).flatten)
    (hhere : text.length ≤ (refilled link calls).rxq.length)
    (hlongest : ∀ n, text.length < n → n ≤ ((refilled link calls).rxq.peek bufsize).length →
      J.isText (((refilled link calls).rxq.peek bufsize).take n) = false) :
    (recvStep J link calls).decoded = link.decoded ++ [text] ∧
      (recvStep J link calls).incoming = (refilled link calls).incoming ∧
      (recvStep J link calls).rxq.content ++ (recvStep J link calls).incoming = rest.flatten := by
  obtain ⟨hkept, hdecoded⟩ := refilled_stream link calls
  rw [hstream, List.flatten_cons] at hkept
  generalize hlink : refilled link calls = v at hhere hlongest hkept hdecoded
  rw [RingBuffer.length] at hhere
  have hpos : 0 < text.length := by
    rw [List.length_pos_iff]
    rintro rfl
    rw [J.nonempty] at hvalid
    cases hvalid
  have hcontent : v.rxq.content = text ++ v.rxq.content.drop text.length := by
    have htake : v.rxq.content.take text.length = text := by
      have hfirst := congrArg (List.take text.length) hkept
      rw [List.take_append_of_le_length hhere, List.take_left] at hfirst
      exact hfirst
    conv_lhs => rw [← List.take_append_drop text.length v.rxq.content, htake]
  have hpeek : (v.rxq.peek bufsize).take text.length = text := by
    rw [RingBuffer.peek, List.take_take, Nat.min_eq_left hshort, hcontent, List.take_left]
  have hlength : text.length ≤ (v.rxq.peek bufsize).length := by
    rw [RingBuffer.peek, List.length_take]
    omega
  have hparse : cJsonParse J (v.rxq.peek bufsize) = some text.length := by
    rw [cJsonParse_eq_some hpos, hpeek]
    exact ⟨hlength, hvalid, hlongest⟩
  have hne : (refilled link calls).rxq.content ≠ [] := by
    rw [hlink, ← List.length_pos_iff]
    omega
  rw [← hlink] at hparse
  rw [recv_text hne hparse, hlink, hpeek]
  refine ⟨by rw [hdecoded], rfl, ?_⟩
  show v.rxq.content.drop text.length ++ v.incoming = rest.flatten
  rw [hcontent, List.append_assoc] at hkept
  exact List.append_cancel_left hkept

/-- A call that looks at bytes and leaves the link framed has decoded the next text. -/
theorem whole_of_framed {texts : List (List UInt8)} {text : List UInt8} {rest : List (List UInt8)}
    (hsplit : link.decoded ++ text :: rest = texts)
    (hstream : link.rxq.content ++ link.incoming = (text :: rest).flatten)
    (hne : (refilled link calls).rxq.content ≠ []) (hframed : Framed texts (recvStep J link calls)) :
    text.length ≤ (refilled link calls).rxq.length ∧
      ∀ n, text.length < n → n ≤ ((refilled link calls).rxq.peek bufsize).length →
        J.isText (((refilled link calls).rxq.peek bufsize).take n) = false := by
  obtain ⟨hkept, hdecoded⟩ := refilled_stream link calls
  obtain ⟨rest', hsplit', hstream'⟩ := hframed
  cases hparse : cJsonParse J ((refilled link calls).rxq.peek bufsize) with
  | none =>
      -- bytes are gone and no text for them
      rw [recv_none hne hparse] at hsplit' hstream'
      have hsame : rest' = text :: rest := List.append_cancel_left ((hdecoded ▸ hsplit').trans hsplit.symm)
      have hlength := congrArg List.length (hstream'.trans (hsame ▸ (hkept.trans hstream).symm))
      have hpeek := peek_length_ne hne
      have hpos : 0 < (refilled link calls).rxq.content.length := List.length_pos_iff.mpr hne
      simp only [List.length_append, RingBuffer.consume_content, List.length_drop] at hlength
      omega
  | some n =>
      rw [recv_text hne hparse, hdecoded, List.append_assoc] at hsplit'
      have hfound : ((refilled link calls).rxq.peek bufsize).take n = text :=
        (List.cons.inj (List.append_cancel_left (hsplit'.trans hsplit.symm))).1
      obtain ⟨hn, -, hlongest⟩ := (cJsonParse_eq_some (cJsonParse_pos hparse)).mp hparse
      have hlength : n = text.length := by
        rw [← hfound, List.length_take]
        omega
      subst hlength
      refine ⟨?_, hlongest⟩
      rw [RingBuffer.peek, List.length_take] at hn
      rw [RingBuffer.length]
      omega

/-- The text that follows those decoded. -/
theorem next_text {texts : List (List UInt8)} {text : List UInt8} {rest : List (List UInt8)}
    (hsplit : link.decoded ++ text :: rest = texts) : texts[link.decoded.length]? = some text := by
  rw [← hsplit, List.getElem?_append_right (Nat.le_refl _), Nat.sub_self]
  rfl

/-- From a framed link, a call leads to a framed link exactly when it finds nothing or the next text as a whole. -/
theorem recv_framed_iff {texts : List (List UInt8)}
    (hvalid : ∀ text ∈ texts, J.isText text = true ∧ text.length ≤ bufsize) (hframed : Framed texts link)
    (calls : List Nat) : Framed texts (recvStep J link calls) ↔ Whole J texts link calls := by
  obtain ⟨rest, hsplit, hstream⟩ := hframed
  obtain ⟨hkept, hdecoded⟩ := refilled_stream link calls
  by_cases hne : (refilled link calls).rxq.content = []
  · rw [recv_empty hne]
    exact iff_of_true ⟨rest, by rw [hdecoded, hsplit], hkept.trans hstream⟩ fun h => absurd hne h
  · cases rest with
    | nil =>
        rw [hstream] at hkept
        exact absurd (List.append_eq_nil_iff.mp hkept).1 hne
    | cons text rest =>
        have hnext := next_text hsplit
        obtain ⟨htext, hshort⟩ := hvalid text (List.mem_of_getElem? hnext)
        constructor
        · intro hframed _
          exact ⟨text, hnext, whole_of_framed hsplit hstream hne hframed⟩
        · intro hwhole
          obtain ⟨text', hnext', hhere, hlongest⟩ := hwhole hne
          obtain rfl := Option.some.inj (hnext.symm.trans hnext')
          obtain ⟨hdone, -, hleft⟩ := recv_whole htext hshort hstream hhere hlongest
          exact ⟨rest, by rw [hdone, List.append_assoc]; exact hsplit, hleft⟩

end Call

/-! ### A whole run -/

theorem refilled_of_arrived {link : Link} (h : link.incoming = []) (calls : List Nat) : refilled link calls = link := by
  have hnone : ∀ available, (serverRecv available bufsize link).length = 0 := by
    intro available
    rw [serverRecv, h, List.take_nil]
    rfl
  rw [refilled]
  cases calls with
  | nil => rfl
  | cons available calls =>
      simp only [refill, if_pos (hnone available)]
      split_ifs <;> rfl

/-- Once everything has come in, each call decodes the next text. -/
theorem decodes_rest {texts : List (List UInt8)} {link : Link}
    (hvalid : ∀ text ∈ texts, J.isText text = true ∧ text.length ≤ bufsize) {rest : List (List UInt8)}
    (hsplit : link.decoded ++ rest = texts) (hstream : link.rxq.content = rest.flatten) (harrived : link.incoming = [])
    {more : List (List Nat)} (hwhole : EveryStep (recvStep J) (Whole J texts) link more)
    (henough : rest.length ≤ more.length) : (run (recvStep J) link more).decoded = texts := by
  induction more generalizing link rest with
  | nil =>
      have hdone : rest = [] := List.length_eq_zero_iff.mp (Nat.le_zero.mp henough)
      rw [hdone, List.append_nil] at hsplit
      exact hsplit
  | cons calls more ih =>
      have hsame := refilled_of_arrived harrived calls
      rw [run_cons]
      cases rest with
      | nil =>
          have hempty : (refilled link calls).rxq.content = [] := by rw [hsame, hstream]; rfl
          have hidle : recvStep J link calls = link := (recv_empty hempty).trans hsame
          have hwhole' := hwhole.2
          rw [hidle] at hwhole' ⊢
          exact ih hsplit hstream harrived hwhole' (Nat.zero_le _)
      | cons text rest =>
          have hnext := next_text hsplit
          obtain ⟨htext, hshort⟩ := hvalid text (List.mem_of_getElem? hnext)
          have hne : (refilled link calls).rxq.content ≠ [] := by
            rw [hsame, hstream, List.flatten_cons]
            intro hnil
            rw [(List.append_eq_nil_iff.mp hnil).1, J.nonempty] at htext
            cases htext
          obtain ⟨text', hnext', hhere, hlongest⟩ := hwhole.1 hne
          obtain rfl := Option.some.inj (hnext.symm.trans hnext')
          have hall : link.rxq.content ++ link.incoming = (text :: rest).flatten := by
            rw [harrived, List.append_nil, hstream]
          obtain ⟨hdone, hincoming, hleft⟩ := recv_whole htext hshort hall hhere hlongest
          have harrived' : (recvStep J link calls).incoming = [] := by rw [hincoming, hsame, harrived]
          rw [harrived', List.append_nil] at hleft
          refine ih ?_ hleft harrived' hwhole.2 (Nat.le_of_succ_le_succ henough)
          rw [hdone, List.append_assoc]
          exact hsplit

/-- Along every run of calls, the texts of the stream are decoded in order and no byte is lost exactly when every call that finds something in the queue finds the next text there as a whole. If so, once everything has come in, as many calls as there are texts decode what is left. -/
theorem framing_iff (J : Syntax) (s : TextStream J) (calls : List (List Nat)) :
    (EveryState (recvStep J) (Framed s.texts) s.start calls ↔ EveryStep (recvStep J) (Whole J s.texts) s.start calls) ∧
      ∀ more, EveryStep (recvStep J) (Whole J s.texts) s.start (calls ++ more) →
        (run (recvStep J) s.start calls).incoming = [] → s.texts.length ≤ more.length →
        (run (recvStep J) s.start (calls ++ more)).decoded = s.texts := by
  have hstart : Framed s.texts s.start := ⟨s.texts, rfl, rfl⟩
  have hiff : ∀ calls, EveryState (recvStep J) (Framed s.texts) s.start calls ↔
      EveryStep (recvStep J) (Whole J s.texts) s.start calls := by
    refine everyState_iff_everyStep (I := fun _ => True) (fun _ _ _ => trivial) ?_ trivial hstart
    intro link calls _ hframed
    exact recv_framed_iff s.valid hframed calls
  refine ⟨hiff calls, fun more hwhole harrived henough => ?_⟩
  obtain ⟨hbefore, hafter⟩ := everyStep_append.mp hwhole
  obtain ⟨rest, hsplit, hstream⟩ := ((hiff calls).mpr hbefore).last
  rw [harrived, List.append_nil] at hstream
  have hlength : rest.length ≤ s.texts.length := by
    rw [← hsplit, List.length_append]
    exact Nat.le_add_left _ _
  rw [run_append]
  exact decodes_rest s.valid hsplit hstream harrived hafter (Nat.le_trans hlength henough)

/-! ### A text in two pieces -/

/-- The text ends where its first bracket is closed. -/
def closesAtEnd : Nat → List UInt8 → Bool
  | _, [] => false
  | depth, byte :: bytes =>
      let depth := if byte = 0x5B ∨ byte = 0x7B then depth + 1 else if byte = 0x5D ∨ byte = 0x7D then depth - 1 else depth
      if depth = 0 then bytes.isEmpty else closesAtEnd depth bytes

/-- Arrays and objects, told by their brackets. -/
def bracketSyntax : Syntax := ⟨closesAtEnd 0, rfl⟩

/-- The answer to a status notification, `[3,"1",{}]`. -/
def statusNotificationConf : List UInt8 := [0x5B, 0x33, 0x2C, 0x22, 0x31, 0x22, 0x2C, 0x7B, 0x7D, 0x5D]

/-- And to the next one. -/
def secondConf : List UInt8 := [0x5B, 0x33, 0x2C, 0x22, 0x32, 0x22, 0x2C, 0x7B, 0x7D, 0x5D]

def oneAnswer : TextStream bracketSyntax := ⟨4097, [statusNotificationConf], by decide⟩

def twoAnswers : TextStream bracketSyntax := ⟨4097, [statusNotificationConf, secondConf], by decide⟩

/-- Two texts that come in one piece are decoded, one a call. -/
theorem answers_decoded :
    (run (recvStep bracketSyntax) twoAnswers.start ([[20]] ++ [[], []])).decoded = [statusNotificationConf, secondConf] := by
  have hpeek : (refilled twoAnswers.start [20]).rxq.peek bufsize = statusNotificationConf ++ secondConf := by
    decide +kernel
  have hpeek' : (refilled (recvStep bracketSyntax twoAnswers.start [20]) []).rxq.peek bufsize = secondConf := by
    decide +kernel
  have hlonger : ∀ n < 21, statusNotificationConf.length < n →
      bracketSyntax.isText ((statusNotificationConf ++ secondConf).take n) = false := by decide +kernel
  refine (framing_iff bracketSyntax twoAnswers [[20]]).2 [[], []] ⟨?_, ?_, ?_, trivial⟩ (by decide +kernel) (by decide)
  · intro _
    refine ⟨statusNotificationConf, rfl, by decide +kernel, fun n hlong hseen => ?_⟩
    rw [hpeek] at hseen ⊢
    exact hlonger n (Nat.lt_succ_of_le hseen) hlong
  · intro _
    refine ⟨secondConf, by decide +kernel, by decide +kernel, fun n hlong hseen => ?_⟩
    rw [hpeek'] at hseen
    omega
  · exact fun hne => absurd (by decide +kernel) hne

/-- Of a text that comes in two pieces the first is dropped. -/
theorem split_text_dropped :
    ¬ EveryState (recvStep bracketSyntax) (Framed oneAnswer.texts) oneAnswer.start [[4], [6]] := by
  rintro ⟨-, ⟨rest, hsplit, hstream⟩, -⟩
  have hnone : (recvStep bracketSyntax oneAnswer.start [4]).decoded = [] := by decide +kernel
  have hleft : ((recvStep bracketSyntax oneAnswer.start [4]).rxq.content ++
      (recvStep bracketSyntax oneAnswer.start [4]).incoming).length = 6 := by decide +kernel
  rw [hnone, List.nil_append] at hsplit
  rw [hstream, hsplit] at hleft
  revert hleft
  decide

end Evse.Ocpp
