import Evse.Ocpp.Matching

/-!
# What is to be kept out of the cache

An id on the local list is never to be put into the authorization cache, and with the cache disabled no id is. The cache is written by `do_auth`, which asks neither the list nor the configuration: it writes whatever id is pending.
-/

namespace Evse.Ocpp

open StepRun

/-- What the call behind an event reads, where it reads something. -/
def Event.env : Event → Option Env
  | .process env | .enable env | .tryOccupy env _ _ | .tryRelease env _ | .occupy env | .release env _
  | .receive env _ _ | .mqRecv env | .bootAccepted env | .changeAvailability env _ | .changeConfiguration env
  | .reset env _ => some env
  | .disable | .setReserved _ | .drop _ | .clearCache => none

/-- With the list enabled no id on it gains or changes an entry in the cache, and with the cache disabled nothing is written. -/
structure KeepsOut (w : World) (e : Event) : Prop where
  listed : (∀ env ∈ e.env, env.config.localAuthListEnabled = true) → ∀ id, (w.localList id).isSome = true →
    ∀ entry, (step w e).cache id = some entry → w.cache id = some entry
  disabled : (∃ env ∈ e.env, env.config.authorizationCacheEnabled = false) →
    (step w e).cacheWrites = w.cacheWrites

/-- An answer to an `Authorize.req` that finds a pending id finds the cache enabled, and the id not on an enabled list unless the cache has just this entry for it already. -/
def WritesDuly (w : World) : Event → Prop
  | .receive env id (.authorize info) =>
      ∀ req x, getMessageById w id = some req → req.payload = .authorize x → isSessionPending w = true →
        env.config.authorizationCacheEnabled = true ∧
          (env.config.localAuthListEnabled = true → (w.localList w.session.trial.uid).isSome = true →
            w.cache w.session.trial.uid = some info.entry)
  | _ => True

/-- What writes nothing keeps everything out. -/
theorem KeepsOut.of_caching {w : World} {e : Event} (h : caching (step w e) = caching w) : KeepsOut w e := by
  have hcache : (step w e).cache = w.cache := congrArg Prod.fst h
  have hwrites : (step w e).cacheWrites = w.cacheWrites := congrArg Prod.snd h
  exact ⟨fun _ id _ entry hentry => by rwa [hcache] at hentry, fun _ => hwrites⟩

theorem keepsOut_of_written {w : World} {env : Env} {id : Nat} {info : IdTagInfo}
    (hcaching : caching (step w (.receive env id (.authorize info))) =
      (uidUpdate w.cache w.session.trial.uid info.parentIdTag info.status.toUidStatus info.expiryDate,
        w.cacheWrites ++ [(w.session.trial.uid, info.entry)])) :
    KeepsOut w (.receive env id (.authorize info)) ↔
      env.config.authorizationCacheEnabled = true ∧
        (env.config.localAuthListEnabled = true → (w.localList w.session.trial.uid).isSome = true →
          w.cache w.session.trial.uid = some info.entry) := by
  have hcache : (step w (.receive env id (.authorize info))).cache = _ := congrArg Prod.fst hcaching
  have hwrites : (step w (.receive env id (.authorize info))).cacheWrites = _ := congrArg Prod.snd hcaching
  constructor
  · intro h
    constructor
    · by_contra hdisabled
      have hsame := h.disabled ⟨env, rfl, by simpa using hdisabled⟩
      rw [hwrites] at hsame
      simp at hsame
    · intro henabled hlisted
      refine h.listed ?_ _ hlisted info.entry ?_
      · intro env' henv
        cases henv
        exact henabled
      · rw [hcache]
        exact if_pos rfl
  · rintro ⟨henabled, hlisted⟩
    constructor
    · intro hlist other hother entry hentry
      rw [hcache] at hentry
      unfold uidUpdate at hentry
      dsimp only at hentry
      split at hentry
      next heq =>
        subst heq
        rw [← hentry]
        exact hlisted (hlist env rfl) hother
      next => exact hentry
    · rintro ⟨env', henv, hdisabled⟩
      cases henv
      exact absurd (henabled.symm.trans hdisabled) (by decide)

theorem keepsOut_iff (w : World) (e : Event) : KeepsOut w e ↔ WritesDuly w e := by
  obtain ⟨env, id, info, req, x, rfl, hmsg, hpayload, hpending, hcaching⟩ | hrest := caching_step_cases w e
  · rw [keepsOut_of_written hcaching]
    constructor
    · exact fun h _ _ _ _ _ => h
    · exact fun h => h req x hmsg hpayload hpending
  · have hkeeps : KeepsOut w e := by
      obtain hsame | rfl := hrest
      · exact .of_caching hsame
      · constructor
        · intro _ id _ entry hentry
          exact absurd hentry (by simp [step])
        · rintro ⟨env, henv, -⟩
          exact absurd henv (by simp [Event.env])
    refine iff_of_true hkeeps ?_
    unfold WritesDuly
    split
    next env id info =>
      intro req x hmsg hpayload hpending
      -- an answer that finds a pending id does write
      have hwritten : (step w (.receive env id (.authorize info))).cacheWrites =
          w.cacheWrites ++ [(w.session.trial.uid, info.entry)] := by
        have hstep : step w (.receive env id (.authorize info)) = doAuth env (dropRequest w id) info := by
          simp only [step, receive, hmsg, handlerProcess, hpayload]
        rw [hstep, doAuth, (dispatchAuthResult_cache env _ _).2, recordAuthorization_eq]
        exact congrArg World.cacheWrites (if_pos hpending)
      obtain hsame | hclear := hrest
      · have hnone : (step w (.receive env id (.authorize info))).cacheWrites = w.cacheWrites :=
          congrArg Prod.snd hsame
        rw [hnone] at hwritten
        simp at hwritten
      · cases hclear
    next => trivial

/-- Along a run the cache keeps out what it should exactly when every answer that finds a pending id finds one that may be written. -/
theorem cache_kept_out_iff (boot : Boot) (evs : List Event) :
    EveryStep step KeepsOut boot.start evs ↔ EveryStep step WritesDuly boot.start evs :=
  everyStep_congr (I := fun _ => True) (fun _ _ _ => trivial) (fun w e _ => keepsOut_iff w e) trivial evs

/-- A charger with card A on its local list. -/
def listedBoot : Boot :=
  { freshBoot with localList := fun id => if id = cardA then some ⟨.empty, .accepted, 0⟩ else none }

/-- Card A is presented while both sources are enabled, and the CSMS accepts it. -/
def listedAuthorized : List Event :=
  bootEvents ++ [
    .tryOccupy { now := 10, trialTime := 10, config := { localAuthListEnabled := true, authorizationCacheEnabled := true } }
      cardA false,
    .receive { occupyTime := 10, config := { localAuthListEnabled := true, authorizationCacheEnabled := true } } 1
      (.authorize { status := .accepted })]

theorem listed_id_cached :
    (run step listedBoot.start listedAuthorized).cache cardA = some ⟨.empty, .accepted, 0⟩ ∧
      ¬ EveryStep step KeepsOut listedBoot.start listedAuthorized := by
  refine ⟨by decide +kernel, fun h => ?_⟩
  have hlast : KeepsOut (run step listedBoot.start listedAuthorized.dropLast) _ := h.last
  have hcached := hlast.listed (fun env henv => by cases henv; rfl) cardA (by decide +kernel)
    ⟨.empty, .accepted, 0⟩ (by decide +kernel)
  exact absurd hcached (by decide +kernel)

end Evse.Ocpp
