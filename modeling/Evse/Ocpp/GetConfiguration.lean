import Evse.Lib.CString
import Mathlib.Data.List.Basic

/-!
# GetConfiguration

The keys of a request are joined with commas by the decoder, copied by the adapter and split again by the encoder, which sorts them into two arrays. The encoder puts an array into the answer if its counter says that there is something in it, but the counter of the unknown keys it looks at is not the one the callback counts in: it stays 0, and the array of the unknown keys is thrown away. A key without memory for its object is passed over, and the answer is sent without it.
-/

namespace Evse.Ocpp.Configuration

open CString

/-- What the three steps use of the libraries. -/
structure KeyLibrary where
  /-- `ocpp_get_configuration_size`, 0 for a key that is not known. -/
  size : Text → Nat
  size_nil : size [] = 0
  /-- `ocpp_is_configuration_readable`. -/
  readable : Text → Bool
  /-- What `ocpp_get_configuration` says besides the value. -/
  readonly : Text → Bool
  /-- `ocpp_stringify_configuration_value`. -/
  stringify : Text → Text
  /-- `ocpp_get_configuration_keystr_from_index`, for each index. -/
  keystrs : List (Option Text)
  /-- `strchunk` at commas. -/
  strchunk : Chunks 44
  /-- `strtrim` of spaces. -/
  strtrim : Text → Text
  strtrim_eq : ∀ text, text.head? ≠ some 32 → text.getLast? ≠ some 32 → strtrim text = text

variable (lib : KeyLibrary)

/-! ### The decoder -/

/-- One turn of the loop of `snprintf`s: the keys written so far and their length. -/
def writeKey (keysLen : Nat) : Text × Nat → Text → Text × Nat
  | (keys, i), key =>
      let written := (if i ≠ 0 then [44] else []) ++ key
      (snprintfAt keys i (keysLen - i) written, i + written.length)

/-- The length of the keys with a comma each. -/
def lenWithCommas (keys : List Text) : Nat := (keys.map fun key => key.length + 1).sum

/-- The loop over all keys. -/
def joinKeys (keys : List Text) : Text := (keys.foldl (writeKey (lenWithCommas keys)) ([], 0)).1

/-- `do_get_configuration` of the decoder, for an array of strings. -/
def decodeKeys (keys : List Text) : Option Text := if keys = [] then none else some (joinKeys keys)

/-! ### The adapter -/

/-- `do_get_configuration` of the adapter: the request's keys, as the payload of the answer. -/
def copyKeys (request : Option Text) : Text :=
  let reqKeylen := match request with
    | none => 0
    | some keys => keys.length
  (request.getD []).take reqKeylen

/-! ### The encoder -/

/-- An object of the answer, with the members that it got. -/
structure Entry where
  key : Option Text
  readonly : Option Bool
  value : Option Text
  deriving DecidableEq, Repr

/-- What one call of `pack_configuration` has memory for: the object and its members, and the text of an unknown key. -/
structure KeyMemory where
  object : Bool
  key : Bool
  readonly : Bool
  value : Bool
  unknown : Bool

/-- What the encoder has memory for: the arrays, their places in the answer, and each call of `pack_configuration` by the turn of its loop. -/
structure Memory where
  known : Bool
  unknown : Bool
  knownAdded : Bool
  unknownAdded : Bool
  call : Nat → KeyMemory

/-- Memory for all of it. -/
def Memory.plenty : Memory := ⟨true, true, true, true, fun _ => ⟨true, true, true, true, true⟩⟩

/-- `struct configuration_ctx`. -/
structure Packed where
  known : List Entry
  unknown : List Text
  unknownCount : Int
  deriving DecidableEq, Repr

def entryOf (mem : KeyMemory) (key : Text) : Entry where
  key := if mem.key then some key else none
  readonly := if mem.readonly then some (lib.readonly key) else none
  value := if mem.value then some (lib.stringify key) else none

def packConfiguration (mem : KeyMemory) (ctx : Packed) (key : Text) : Bool × Packed :=
  if lib.size key = 0 then (false, { ctx with unknown := ctx.unknown ++ if mem.unknown then [key] else [] })
  else if lib.readable key = false ∨ mem.object = false then (false, ctx)
  else (true, { ctx with known := ctx.known ++ [entryOf lib mem key] })

def packAllConfigurations (mem : Memory) (ctx : Packed) : Int × Packed :=
  lib.keystrs.zipIdx.foldl
    (fun (count, ctx) (keystr, i) =>
      match keystr with
      | none => (count, ctx)
      | some key => (count + 1, (packConfiguration lib (mem.call i) ctx key).2))
    (0, ctx)

def onEachConfKey (mem : KeyMemory) (ctx : Packed) (chunk : Text) : Packed :=
  let key := lib.strtrim chunk
  if chunk.length = 0 then ctx
  else
    match packConfiguration lib mem ctx key with
    | (true, ctx) => ctx
    | (false, ctx) => { ctx with unknownCount := ctx.unknownCount + 1 }

/-- The count, and what the callback was given. The caller's count of the unknown keys is not among the results: the function leaves it as it is. -/
def packConfigurations (mem : Memory) (keys : Text) : Int × Packed :=
  let chunks := lib.strchunk.chunks keys
  let ctx := chunks.zipIdx.foldl (fun ctx (chunk, i) => onEachConfKey lib (mem.call i) ctx chunk) ⟨[], [], 0⟩
  if chunks.length = 0 then packAllConfigurations lib mem ctx else (chunks.length, ctx)

structure GetConfigurationConf where
  configurationKey : Option (List Entry)
  unknownKey : Option (List Text)
  deriving DecidableEq, Repr

/-- `do_get_configuration` of the encoder; nothing without memory for the arrays. -/
def encodeConfigurations (mem : Memory) (keystr : Text) : Option GetConfigurationConf :=
  if mem.known = false ∨ mem.unknown = false then none
  else
    let unknownCount : Int := 0
    let (count, packed) := packConfigurations lib mem keystr
    some {
      configurationKey := if count - unknownCount > 0 ∧ mem.knownAdded then some packed.known else none
      unknownKey := if unknownCount ≠ 0 ∧ mem.unknownAdded then some packed.unknown else none }

/-- The answer to a request for these keys. -/
def getConfiguration (mem : Memory) (keys : List Text) : Option GetConfigurationConf :=
  encodeConfigurations lib mem (copyKeys (decodeKeys keys))

/-! ### What the answer is to list -/

/-- The key strings a request may have: no comma in them, and no space around them. -/
def PlainKey (key : Text) : Prop := 44 ∉ key ∧ key.head? ≠ some 32 ∧ key.getLast? ≠ some 32

instance (key : Text) : Decidable (PlainKey key) := inferInstanceAs (Decidable (_ ∧ _))

/-- The object of a key with all its members. -/
def wholeEntry (key : Text) : Entry := ⟨some key, some (lib.readonly key), some (lib.stringify key)⟩

/-- Every key is in one of the arrays, in the order asked for, unless it must not be read. -/
structure AnswersEveryKey (keys : List Text) (conf : GetConfigurationConf) : Prop where
  known : conf.configurationKey.getD [] =
    (keys.filter fun key => lib.size key ≠ 0 ∧ lib.readable key = true).map (wholeEntry lib)
  unknown : conf.unknownKey.getD [] = keys.filter fun key => lib.size key = 0
  missing : ∀ key ∈ keys, some key ∉ (conf.configurationKey.getD []).map Entry.key →
    key ∉ conf.unknownKey.getD [] → lib.size key ≠ 0 ∧ lib.readable key = false

/-- There is memory for the object of a key with all its members. -/
def KeyMemory.Suffices (mem : KeyMemory) : Prop :=
  mem.object = true ∧ mem.key = true ∧ mem.readonly = true ∧ mem.value = true

/-- There is memory for the object of each key that can be read, and for the place of their array. -/
def Memory.Suffices (mem : Memory) (keys : List Text) : Prop :=
  ∀ asked ∈ keys.zipIdx, lib.readable asked.1 = true → mem.knownAdded = true ∧ (mem.call asked.2).Suffices

instance (mem : KeyMemory) : Decidable mem.Suffices := inferInstanceAs (Decidable (_ ∧ _))

instance (mem : Memory) (keys : List Text) : Decidable (mem.Suffices lib keys) :=
  inferInstanceAs (Decidable (∀ asked ∈ keys.zipIdx, _))

/-! ### Joining the keys -/

variable {lib} {keys : List Text} {key : Text}

theorem lenWithCommas_cons (key : Text) (keys : List Text) :
    lenWithCommas (key :: keys) = key.length + 1 + lenWithCommas keys := by
  simp only [lenWithCommas, List.map_cons, List.sum_cons]

/-- The loop after a first key that is not empty: there is room for every comma and every key. -/
theorem foldl_writeKey (rest : List Text) {keysLen : Nat} {written : Text} (hne : written ≠ [])
    (hroom : written.length + lenWithCommas rest < keysLen) :
    (rest.foldl (writeKey keysLen) (written, written.length)).1 = written ++ rest.flatMap (44 :: ·) := by
  induction rest generalizing written with
  | nil => simp
  | cons next rest ih =>
    have hpos : written.length ≠ 0 := fun h => hne (List.length_eq_zero_iff.1 h)
    rw [lenWithCommas_cons] at hroom
    have hfits : (44 :: next).length < keysLen - written.length := by
      rw [List.length_cons]
      omega
    have hstep : writeKey keysLen (written, written.length) next =
        (written ++ 44 :: next, (written ++ 44 :: next).length) := by
      simp only [writeKey, if_pos hpos, List.singleton_append, snprintfAt_end hfits, List.length_append]
    rw [List.foldl_cons, hstep, ih (by simp)]
    · simp
    · simp only [List.length_append, List.length_cons]
      omega

theorem decodeKeys_eq (hne : keys ≠ []) (hkeys : ∀ key ∈ keys, key ≠ []) :
    decodeKeys keys = some ([44].intercalate keys) := by
  cases keys with
  | nil => exact absurd rfl hne
  | cons first rest =>
    have hlen := lenWithCommas_cons first rest
    have hstep : writeKey (lenWithCommas (first :: rest)) ([], 0) first = (first, first.length) := by
      have hbuffer : snprintfAt [] 0 (lenWithCommas (first :: rest)) first = first :=
        snprintfAt_end (by omega)
      simp [writeKey, hbuffer]
    rw [decodeKeys, if_neg (by simp), joinKeys, List.foldl_cons, hstep,
      foldl_writeKey rest (hkeys first List.mem_cons_self) (by omega), intercalate_cons_eq_append]

/-- The offset is within the room at every turn, so `keys_len - i` does not wrap. -/
theorem offset_foldl_writeKey_le (done rest : List Text) {keysLen i : Nat} {written : Text}
    (hroom : i + lenWithCommas (done ++ rest) ≤ keysLen) :
    (done.foldl (writeKey keysLen) (written, i)).2 + lenWithCommas rest ≤ keysLen := by
  induction done generalizing written i with
  | nil => exact hroom
  | cons key done ih =>
    rw [List.cons_append, lenWithCommas_cons] at hroom
    refine ih ?_
    rw [List.length_append]
    split
    · rw [List.length_singleton]
      omega
    · rw [List.length_nil]
      omega

/-- Whatever the keys are, the loop stays within the room made for them. -/
theorem length_foldl_writeKey_le (keysLen : Nat) (s : Text × Nat) (hs : s.1.length ≤ keysLen) :
    (keys.foldl (writeKey keysLen) s).1.length ≤ keysLen := by
  induction keys generalizing s with
  | nil => exact hs
  | cons key keys ih =>
    refine ih _ ?_
    obtain ⟨written, i⟩ := s
    simp only [writeKey, snprintfAt]
    split
    · exact hs
    · rw [List.length_append]
      have htake := List.length_take_le i written
      have hroom := List.length_take_le (keysLen - i - 1) ((if i ≠ 0 then [44] else []) ++ key)
      omega

theorem length_joinKeys_le (keys : List Text) : (joinKeys keys).length ≤ lenWithCommas keys :=
  length_foldl_writeKey_le _ _ (Nat.zero_le _)

theorem copyKeys_some (text : Text) : copyKeys (some text) = text := List.take_length

/-! ### Sorting them -/

theorem length_filterMap_le {α β : Type} {l : List α} {g h : α → Option β} (hle : ∀ x ∈ l, h x = none → g x = none) :
    (l.filterMap g).length ≤ (l.filterMap h).length := by
  induction l with
  | nil => exact Nat.le_refl _
  | cons x l ih =>
    have htail := ih fun y hy => hle y (List.mem_cons_of_mem _ hy)
    have hhead := hle x List.mem_cons_self
    cases hh : h x with
    | none => simpa [List.filterMap_cons, hh, hhead hh] using htail
    | some whole =>
      cases hg : g x with
      | none => simpa [List.filterMap_cons, hh, hg] using Nat.le_succ_of_le htail
      | some part => simpa [List.filterMap_cons, hh, hg] using htail

/-- Two ways to pick from a list, one of which picks whatever the other does, agree if they agree on each member. -/
theorem filterMap_eq_filterMap_iff {α β : Type} {l : List α} {g h : α → Option β}
    (hle : ∀ x ∈ l, h x = none → g x = none) : l.filterMap g = l.filterMap h ↔ ∀ x ∈ l, g x = h x := by
  refine ⟨fun hsame => ?_, fun hsame => List.filterMap_congr hsame⟩
  induction l with
  | nil => exact fun x hx => absurd hx List.not_mem_nil
  | cons x l ih =>
    have hrest : ∀ y ∈ l, h y = none → g y = none := fun y hy => hle y (List.mem_cons_of_mem _ hy)
    have hlength := length_filterMap_le hrest
    cases hh : h x with
    | none =>
      have hg := hle x List.mem_cons_self hh
      simp only [List.filterMap_cons, hh, hg] at hsame
      exact List.forall_mem_cons.2 ⟨hg.trans hh.symm, ih hrest hsame⟩
    | some whole =>
      cases hg : g x with
      | none =>
        simp only [List.filterMap_cons, hh, hg] at hsame
        rw [hsame, List.length_cons] at hlength
        exact absurd hlength (Nat.not_succ_le_self _)
      | some part =>
        simp only [List.filterMap_cons, hh, hg, List.cons.injEq] at hsame
        exact List.forall_mem_cons.2 ⟨by rw [hg, hh, hsame.1], ih hrest hsame.2⟩

/-- The object that a call of `pack_configuration` adds. -/
def packedEntry (lib : KeyLibrary) (mem : Memory) (asked : Text × Nat) : Option Entry :=
  if lib.size asked.1 ≠ 0 ∧ lib.readable asked.1 = true ∧ (mem.call asked.2).object = true then
    some (entryOf lib (mem.call asked.2) asked.1)
  else none

/-- What the callback adds for a list of keys. -/
theorem foldl_onEachConfKey (mem : Memory) {asked : List (Text × Nat)} (hne : ∀ key ∈ asked, key.1 ≠ [])
    (hplain : ∀ key ∈ asked, PlainKey key.1) (ctx : Packed) :
    (asked.foldl (fun ctx key => onEachConfKey lib (mem.call key.2) ctx key.1) ctx).known =
      ctx.known ++ asked.filterMap (packedEntry lib mem) := by
  induction asked generalizing ctx with
  | nil => simp
  | cons key asked ih =>
    have hknown := ih (fun k hk => hne k (List.mem_cons_of_mem _ hk))
      (fun k hk => hplain k (List.mem_cons_of_mem _ hk)) (onEachConfKey lib (mem.call key.2) ctx key.1)
    rw [List.foldl_cons, hknown]
    have hlength : key.1.length ≠ 0 := fun h => hne key List.mem_cons_self (List.length_eq_zero_iff.1 h)
    obtain ⟨-, hhead, hlast⟩ := hplain key List.mem_cons_self
    simp only [onEachConfKey, if_neg hlength, lib.strtrim_eq key.1 hhead hlast, packConfiguration, packedEntry,
      List.filterMap_cons]
    by_cases hsize : lib.size key.1 = 0
    · simp [hsize]
    · cases hreadable : lib.readable key.1 <;> cases hobject : (mem.call key.2).object <;> simp [hsize]

theorem encodeConfigurations_unknownKey {mem : Memory} {keystr : Text} {conf : GetConfigurationConf}
    (h : encodeConfigurations lib mem keystr = some conf) : conf.unknownKey = none := by
  unfold encodeConfigurations at h
  split at h
  · cases h
  · rw [← Option.some.inj h]
    rfl

theorem encodeConfigurations_configurationKey {mem : Memory} {conf : GetConfigurationConf} (hne : keys ≠ [])
    (hkeys : ∀ key ∈ keys, key ≠ []) (hplain : ∀ key ∈ keys, PlainKey key)
    (h : encodeConfigurations lib mem ([44].intercalate keys) = some conf) :
    conf.configurationKey.getD [] = if mem.knownAdded then keys.zipIdx.filterMap (packedEntry lib mem) else [] := by
  have hchunks : lib.strchunk.chunks ([44].intercalate keys) = keys :=
    lib.strchunk.chunks_join keys hne fun key hkey => ⟨hkeys key hkey, (hplain key hkey).1⟩
  have hpos : 0 < keys.length := List.length_pos_iff.2 hne
  have hasked : ∀ asked ∈ keys.zipIdx, asked.1 ∈ keys := fun asked hmem => List.fst_mem_of_mem_zipIdx hmem
  have hknown := @foldl_onEachConfKey lib mem _ (fun asked hmem => hkeys asked.1 (hasked asked hmem))
    (fun asked hmem => hplain asked.1 (hasked asked hmem)) ⟨[], [], 0⟩
  have hpacked : packConfigurations lib mem ([44].intercalate keys) = ((keys.length : Int),
      keys.zipIdx.foldl (fun ctx key => onEachConfKey lib (mem.call key.2) ctx key.1) ⟨[], [], 0⟩) := by
    simp only [packConfigurations, hchunks]
    rw [if_neg (by omega)]
  unfold encodeConfigurations at h
  split at h
  · cases h
  · rw [hpacked] at h
    rw [← Option.some.inj h]
    dsimp only
    cases mem.knownAdded with
    | false => simp
    | true =>
      rw [if_pos ⟨by omega, rfl⟩, Option.getD_some, hknown, if_pos rfl]
      exact List.nil_append _

/-- The objects that the answer is to have are picked from the keys, too. -/
theorem map_wholeEntry (lib : KeyLibrary) (keys : List Text) :
    (keys.filter fun key => lib.size key ≠ 0 ∧ lib.readable key = true).map (wholeEntry lib) =
      keys.zipIdx.filterMap fun asked =>
        if lib.size asked.1 ≠ 0 ∧ lib.readable asked.1 = true then some (wholeEntry lib asked.1) else none := by
  have hfst : (fun asked : Text × Nat => if lib.size asked.1 ≠ 0 ∧ lib.readable asked.1 = true then
      some (wholeEntry lib asked.1) else none) =
        (fun key => if lib.size key ≠ 0 ∧ lib.readable key = true then some (wholeEntry lib key) else none) ∘ Prod.fst := rfl
  rw [hfst, ← List.filterMap_map, List.zipIdx_map_fst]
  induction keys with
  | nil => rfl
  | cons key keys ih =>
    by_cases hkey : lib.size key ≠ 0 ∧ lib.readable key = true
    · rw [List.filter_cons_of_pos (by simpa using hkey), List.map_cons, List.filterMap_cons, if_pos hkey, ih]
    · rw [List.filter_cons_of_neg (by simpa using hkey), List.filterMap_cons, if_neg hkey, ih]

theorem entryOf_eq_wholeEntry_iff {mem : KeyMemory} :
    entryOf lib mem key = wholeEntry lib key ↔ mem.key = true ∧ mem.readonly = true ∧ mem.value = true := by
  simp only [entryOf, wholeEntry, Entry.mk.injEq, ite_eq_left_iff, reduceCtorEq, imp_false, Bool.not_eq_true,
    Bool.not_eq_false]

/-- The objects are all there if there is memory for them. -/
theorem packedEntry_eq_iff {mem : Memory} (hknown : ∀ key ∈ keys, lib.size key ≠ 0) :
    keys.zipIdx.filterMap (packedEntry lib mem) =
        (keys.filter fun key => lib.size key ≠ 0 ∧ lib.readable key = true).map (wholeEntry lib) ↔
      ∀ asked ∈ keys.zipIdx, lib.readable asked.1 = true → (mem.call asked.2).Suffices := by
  rw [map_wholeEntry, filterMap_eq_filterMap_iff]
  · refine forall₂_congr fun asked hmem => ?_
    have hsize := hknown asked.1 (List.fst_mem_of_mem_zipIdx hmem)
    unfold packedEntry KeyMemory.Suffices
    cases lib.readable asked.1 with
    | false => simp
    | true =>
      cases (mem.call asked.2).object with
      | false => simp [hsize]
      | true => simp [hsize, entryOf_eq_wholeEntry_iff]
  · intro asked _ hnone
    unfold packedEntry
    rw [if_neg]
    rintro ⟨hsize, hreadable, -⟩
    rw [if_pos ⟨hsize, hreadable⟩] at hnone
    cases hnone

/-- A request is answered for every key exactly if all its keys are known and there is memory for what is to be said of them. -/
theorem get_configuration_answers_iff (lib : KeyLibrary) (mem : Memory) (keys : List Text) (hne : keys ≠ [])
    (hplain : ∀ key ∈ keys, PlainKey key) {conf : GetConfigurationConf}
    (hconf : getConfiguration lib mem keys = some conf) :
    AnswersEveryKey lib keys conf ↔ (∀ key ∈ keys, lib.size key ≠ 0) ∧ mem.Suffices lib keys := by
  have hnone := encodeConfigurations_unknownKey hconf
  have hall : AnswersEveryKey lib keys conf → ∀ key ∈ keys, lib.size key ≠ 0 := by
    intro h key hkey hsize
    have hlisted : key ∈ conf.unknownKey.getD [] := by
      rw [h.unknown]
      simpa using ⟨hkey, hsize⟩
    rw [hnone] at hlisted
    exact absurd hlisted List.not_mem_nil
  refine Iff.trans ⟨fun h => ⟨hall h, h⟩, And.right⟩ (and_congr_right fun hknown => ?_)
  have hkeys : ∀ key ∈ keys, key ≠ [] := by
    rintro key hkey rfl
    exact hknown [] hkey lib.size_nil
  rw [getConfiguration, decodeKeys_eq hne hkeys, copyKeys_some] at hconf
  have hpacked := encodeConfigurations_configurationKey hne hkeys hplain hconf
  have hwhole := @packedEntry_eq_iff lib keys mem hknown
  have hanswers : AnswersEveryKey lib keys conf ↔ conf.configurationKey.getD [] =
      (keys.filter fun key => lib.size key ≠ 0 ∧ lib.readable key = true).map (wholeEntry lib) := by
    refine ⟨AnswersEveryKey.known, fun hlisted => ⟨hlisted, ?_, ?_⟩⟩
    · rw [hnone, Option.getD_none, eq_comm, List.filter_eq_nil_iff]
      intro key hkey
      simpa using hknown key hkey
    · intro key hkey hmissing _
      refine ⟨hknown key hkey, Bool.eq_false_iff.2 fun hreadable => hmissing ?_⟩
      rw [hlisted, List.map_map]
      refine List.mem_map.2 ⟨key, ?_, rfl⟩
      simpa using ⟨hkey, hknown key hkey, hreadable⟩
  rw [hanswers, hpacked]
  cases hadded : mem.knownAdded with
  | true =>
    rw [if_pos rfl, hwhole]
    exact forall₃_congr fun asked _ _ => (and_iff_right hadded).symm
  | false =>
    -- Without a place for the array nothing is listed, which is right only of keys that cannot be read.
    rw [if_neg Bool.false_ne_true, eq_comm, List.map_eq_nil_iff, List.filter_eq_nil_iff]
    constructor
    · intro hunreadable asked hmem hreadable
      have hkey := List.fst_mem_of_mem_zipIdx hmem
      exact absurd (hunreadable asked.1 hkey) (by simpa using ⟨hknown asked.1 hkey, hreadable⟩)
    · intro hsuffices key hkey hlisted
      obtain ⟨i, hi, rfl⟩ := List.getElem_of_mem hkey
      have hmem : (keys[i], i) ∈ keys.zipIdx := List.mem_zipIdx_iff_getElem?.2 (List.getElem?_eq_getElem hi)
      have hreadable : lib.readable keys[i] = true := by
        simp only [decide_eq_true_eq] at hlisted
        exact hlisted.2
      exact Bool.noConfusion ((hsuffices _ hmem hreadable).1.symm.trans hadded)

/-- A library with three keys, one of which cannot be read. -/
def chargerKeys : KeyLibrary where
  size key := if key = ascii "HeartbeatInterval" ∨ key = ascii "AuthorizationKey" ∨ key = ascii "ResetRetries" then 4 else 0
  size_nil := by decide
  readable key := key ≠ ascii "AuthorizationKey"
  readonly key := key = ascii "ResetRetries"
  stringify key := if key = ascii "HeartbeatInterval" then ascii "3600" else ascii "3"
  keystrs := [some (ascii "HeartbeatInterval"), none, some (ascii "AuthorizationKey"), some (ascii "ResetRetries")]
  strchunk := .splitting 44
  strtrim := trim 32
  strtrim_eq _ := trim_eq_self

/-- Several keys, one of them twice and one that cannot be read. -/
def askedKeys : List Text :=
  [ascii "ResetRetries", ascii "HeartbeatInterval", ascii "AuthorizationKey", ascii "ResetRetries"]

/-- A request for them is answered, each time a key is asked for. -/
theorem get_configuration_answers_known : AnswersEveryKey chargerKeys askedKeys
    ⟨some [⟨some (ascii "ResetRetries"), some true, some (ascii "3")⟩,
      ⟨some (ascii "HeartbeatInterval"), some false, some (ascii "3600")⟩,
      ⟨some (ascii "ResetRetries"), some true, some (ascii "3")⟩], none⟩ :=
  (get_configuration_answers_iff chargerKeys .plenty askedKeys (by decide) (by decide) (by decide +kernel)).2
    ⟨by decide, by decide⟩

/-- Of a key that is not known, the answer says nothing. -/
theorem unknown_key_dropped :
    getConfiguration chargerKeys .plenty [ascii "HeartbeatInterval", ascii "Colour"] =
        some ⟨some [⟨some (ascii "HeartbeatInterval"), some false, some (ascii "3600")⟩], none⟩ ∧
      ∀ conf, getConfiguration chargerKeys .plenty [ascii "HeartbeatInterval", ascii "Colour"] = some conf →
        ¬ AnswersEveryKey chargerKeys [ascii "HeartbeatInterval", ascii "Colour"] conf := by
  have hconf : getConfiguration chargerKeys .plenty [ascii "HeartbeatInterval", ascii "Colour"] =
      some ⟨some [⟨some (ascii "HeartbeatInterval"), some false, some (ascii "3600")⟩], none⟩ := by decide +kernel
  refine ⟨hconf, fun conf hanswer h => ?_⟩
  rw [hconf] at hanswer
  rw [← Option.some.inj hanswer] at h
  exact absurd h.unknown (by decide)

end Evse.Ocpp.Configuration
