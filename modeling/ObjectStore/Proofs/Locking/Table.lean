/-
What the calls of a lock table do to the requests on each key.

A request is an entry without those who listen to it.  Parking a call changes who listens and
nothing else, so that a table's calls are described by its requests: `LockTable.turn_spec` and
`LockTable.tryLock_spec` say what becomes of those on the key, and the lemmas beside them that all
other keys stay as they are.
-/
import ObjectStore.Proofs.Locking.Contest

namespace ObjectStore

open LockEntry (Distinct Handled Attempted Turned)

namespace LockEntry

variable {L : Type} {gone : L → Prop} {locker : L} {mode : LockMode} {es es' : List (LockEntry L)}

/-! ### Forgetting who listens -/

theorem Distinct.request (h : Distinct es) : Distinct (es.map LockEntry.request) :=
  h.map fun _ _ => rfl

theorem Holds.request (h : Holds locker mode es) : Holds locker mode (es.map LockEntry.request) := by
  obtain ⟨e, he, howner, hgranted, hmode⟩ := h
  exact ⟨_, List.mem_map_of_mem he, howner, hgranted, hmode⟩

theorem Gain.request {own : LockEntry L} (h : Gain locker mode es es' own) :
    Gain locker mode (es.map LockEntry.request) (es'.map LockEntry.request) own.request := by
  have hlift : (∀ e ∈ es', e.granted = true → e.owner ≠ locker → mode.conflictsWith e.mode = false) →
      ∀ e ∈ es'.map LockEntry.request, e.granted = true → e.owner ≠ locker →
        mode.conflictsWith e.mode = false := by
    intro hclear e he
    obtain ⟨x, hx, rfl⟩ := List.mem_map.mp he
    exact hclear x hx
  cases h with
  | held hold => exact .held (List.mem_map_of_mem hold)
  | raised old hold howner hmode hweak hclear =>
      exact .raised old.request (List.mem_map_of_mem hold) howner hmode hweak (hlift hclear)
  | new hnone hmode hclear =>
      refine .new (fun e he => ?_) hmode (hlift hclear)
      obtain ⟨x, hx, rfl⟩ := List.mem_map.mp he
      exact hnone x hx

theorem Handled.request (h : Handled gone locker mode es es') :
    Handled gone locker mode (es.map LockEntry.request) (es'.map LockEntry.request) where
  distinct := h.distinct.request
  others := by
    intro e he hne
    obtain ⟨x, hx, rfl⟩ := List.mem_map.mp he
    exact List.mem_map_of_mem (h.others x hx hne)
  kept := by
    intro e he hne
    obtain ⟨x, hx, rfl⟩ := List.mem_map.mp he
    exact (h.kept x hx hne).imp_left List.mem_map_of_mem
  gain := by
    intro e he howner hgranted
    obtain ⟨x, hx, rfl⟩ := List.mem_map.mp he
    exact (h.gain x hx howner hgranted).request

theorem Attempted.request {wait : Bool} {verdict : Verdict L}
    (h : Attempted gone locker mode wait es verdict es') :
    Attempted gone locker mode wait (es.map LockEntry.request) verdict
      (es'.map LockEntry.request) where
  toHandled := h.toHandled.request
  granted := fun hv => (h.granted hv).request
  kept_own := by
    intro hv e he howner
    obtain ⟨x, hx, rfl⟩ := List.mem_map.mp he
    exact List.mem_map_of_mem (h.kept_own hv x hx howner)
  queued := by
    intro e he howner hqueued
    obtain ⟨x, hx, rfl⟩ := List.mem_map.mp he
    obtain ⟨hv, hx'⟩ := h.queued x hx howner hqueued
    exact ⟨hv, hx'.imp_left List.mem_map_of_mem⟩

end LockEntry

namespace LockTable

variable {K L σ : Type} [Hashable K] [DecidableEq K]

/-- The entries of a key without those who listen. -/
def requests (t : LockTable K L) (key : K) : List (LockEntry L) :=
  (t.entries key).map LockEntry.request

/-- On no key a locker has two entries. -/
def Distinct (t : LockTable K L) : Prop := ∀ key, LockEntry.Distinct (t.requests key)

theorem Distinct.entries {t : LockTable K L} (h : t.Distinct) (key : K) :
    LockEntry.Distinct (t.entries key) := by
  have hkey := h key
  unfold requests LockEntry.Distinct at hkey
  rwa [List.map_map] at hkey

theorem entries_ofShards (count : Nat) (key : K) :
    (ofShards count : LockTable K L).entries key = [] := by
  unfold entries
  cases h : (ofShards count : LockTable K L).shards[(ofShards count).shardIndex key]? with
  | none => rfl
  | some shard =>
      obtain ⟨_, hshard⟩ := List.mem_replicate.mp (List.mem_of_getElem? h)
      rw [hshard]
      rfl

theorem distinct_ofShards (count : Nat) : (ofShards count : LockTable K L).Distinct := by
  intro key
  unfold requests
  rw [entries_ofShards]
  exact List.nodup_nil

theorem requests_setEntries (t : LockTable K L) (key : K) (es : List (LockEntry L)) (key' : K) :
    (t.setEntries key es).requests key' =
      if key = key' then es.map LockEntry.request else t.requests key' := by
  unfold requests
  rw [entries_setEntries]
  split <;> rfl

variable [DecidableEq L] {t : LockTable K L} {key key' : K} {locker : L}

theorem requests_listen (t : LockTable K L) (key : K) (owner : L) (signal : Signal) (key' : K) :
    (t.listen key owner signal).requests key' = t.requests key' := by
  unfold requests
  rw [entries_listen]
  split
  · rename_i hkey
    rw [← hkey, List.map_map]
    refine List.map_congr_left fun e _ => ?_
    simp only [Function.comp_apply]
    split <;> rfl
  · rfl

theorem requests_park (t : LockTable K L) (key : K) (locker holder : L) (key' : K) :
    (t.park key locker holder).2.requests key' = t.requests key' :=
  requests_listen t key holder t.nextSignal key'

/-! ### Calls that take entries away -/

theorem requests_release (t : LockTable K L) (locker : L) (key key' : K) :
    (t.release locker key).2.requests key' =
      if key = key' then (t.requests key).eraseP (·.owner = locker) else t.requests key' := by
  unfold requests
  rw [entries_release]
  split
  · rw [List.eraseP_map]
    rfl
  · rfl

theorem requests_releaseAll (t : LockTable K L) (locker : L) (key : K) :
    (t.releaseAll locker).requests key = (t.requests key).eraseP (·.owner = locker) := by
  unfold requests
  rw [entries_releaseAll, List.eraseP_map]
  rfl

/-- Giving up waiting touches one key at most, -/
theorem requests_abandon_of_ne (t : LockTable K L) (locker : L) (hkey : key ≠ key') :
    (t.abandon locker key).requests key' = t.requests key' := by
  unfold abandon
  simp only
  split
  · rfl
  · split
    · rfl
    · exact (requests_release _ locker key key').trans (if_neg hkey)

theorem requests_abandon_sublist (t : LockTable K L) (locker : L) (key : K) :
    ((t.abandon locker key).requests key).Sublist (t.requests key) := by
  unfold abandon
  simp only
  split
  · exact List.Sublist.refl _
  · split
    · exact List.Sublist.refl _
    · rw [requests_release, if_pos rfl]
      exact List.eraseP_sublist

/-- and takes there what the locker has queued. -/
theorem mem_requests_abandon (hd : t.Distinct) {e : LockEntry L} :
    e ∈ (t.abandon locker key).requests key ↔
      e ∈ t.requests key ∧ (e.owner = locker → e.granted = true) := by
  have howned : ∀ own, (t.entries key).find? (·.owner = locker) = some own →
      e ∈ t.requests key → e.owner = locker → e.granted = own.granted := by
    intro own hfind he howner
    obtain ⟨hin, hownowner⟩ := (hd.entries key).find?_eq_some_iff.mp hfind
    rw [(hd key).eq_of_owner he (List.mem_map_of_mem hin) (howner.trans hownowner.symm)]
    rfl
  have hentries : ∀ parked, ({ t with parked } : LockTable K L).entries key = t.entries key :=
    fun _ => rfl
  unfold abandon
  simp only [hentries]
  split
  · rename_i hnone
    constructor
    · intro he
      obtain ⟨x, hx, rfl⟩ := List.mem_map.mp he
      have hne : ¬ x.owner = locker := by simpa using List.find?_eq_none.mp hnone x hx
      exact ⟨he, fun howner => absurd howner hne⟩
    · exact And.left
  · rename_i own hfind
    split
    · rename_i hgranted
      constructor
      · intro he
        exact ⟨he, fun howner => (howned own hfind he howner).trans hgranted⟩
      · exact And.left
    · rename_i hqueued
      rw [requests_release, if_pos rfl]
      refine Iff.trans (hd key).mem_eraseP ?_
      constructor
      · intro h
        exact ⟨h.1, fun howner => absurd howner h.2⟩
      · intro h
        exact ⟨h.1, fun howner => hqueued ((howned own hfind h.1 howner).symm.trans
          (h.2 howner))⟩

theorem Distinct.releaseAll (h : t.Distinct) : (t.releaseAll locker).Distinct := by
  intro key
  rw [requests_releaseAll]
  exact (h key).sublist List.eraseP_sublist

/-! ### Calls that ask for a key -/

variable [Lockers σ L] {gone : σ → L → Prop} {now deadline : Nat} {mode : LockMode} {wait : Bool}
variable {s s' : σ} {t' : LockTable K L}

/-- An attempt is one on the entries of its key. -/
theorem attempt_eq {verdict : Verdict L}
    (h : t.attempt now locker key mode wait s = (verdict, s', t')) :
    ∃ c', Contest.attempt now t.parked locker mode wait ⟨s, t.entries key, []⟩ = (verdict, c') ∧
      s' = c'.lockers ∧
      t' = { t.setEntries key c'.entries with notified := t.notified ++ c'.woken } := by
  unfold attempt at h
  rcases hc : Contest.attempt now t.parked locker mode wait ⟨s, t.entries key, []⟩ with ⟨v, c'⟩
  rw [hc] at h
  simp only [Prod.mk.injEq] at h
  obtain ⟨rfl, rfl, rfl⟩ := h
  exact ⟨c', rfl, rfl, rfl⟩

theorem requests_attempt_of_ne {verdict : Verdict L}
    (h : t.attempt now locker key mode wait s = (verdict, s', t')) (hkey : key ≠ key') :
    t'.requests key' = t.requests key' := by
  obtain ⟨c', -, -, rfl⟩ := attempt_eq h
  exact (requests_setEntries t key c'.entries key').trans (if_neg hkey)

theorem attempt_spec (hfinal : Lockers.Final gone) (hd : t.Distinct) {verdict : Verdict L}
    (h : t.attempt now locker key mode wait s = (verdict, s', t')) :
    Attempted (gone s') locker mode wait (t.requests key) verdict (t'.requests key) := by
  obtain ⟨c', hc, rfl, rfl⟩ := attempt_eq h
  have hspec : Attempted (gone c'.lockers) locker mode wait (t.entries key) verdict c'.entries := by
    have hattempt := @Contest.attempt_spec _ _ _ _ gone t.parked now locker mode wait hfinal
      ⟨s, t.entries key, []⟩ (hd.entries key)
    rwa [hc] at hattempt
  have hrequests : LockTable.requests
      { t.setEntries key c'.entries with notified := t.notified ++ c'.woken } key =
        c'.entries.map LockEntry.request :=
    (requests_setEntries t key c'.entries key).trans (if_pos rfl)
  rw [hrequests]
  exact hspec.request

theorem lockers_attempt {R : σ → σ → Prop} (hrefl : ∀ s, R s s)
    (htrans : ∀ s₁ s₂ s₃, R s₁ s₂ → R s₂ s₃ → R s₁ s₃)
    (hwound : ∀ s l reason, l ≠ locker → R s (Lockers.wound s l reason).2) {verdict : Verdict L}
    (h : t.attempt now locker key mode wait s = (verdict, s', t')) : R s s' := by
  obtain ⟨c', hc, rfl, -⟩ := attempt_eq h
  have hkeeps : R s (Contest.attempt now t.parked locker mode wait ⟨s, t.entries key, []⟩).2.lockers :=
    Contest.lockers_attempt hrefl htrans hwound ⟨s, t.entries key, []⟩
  rwa [hc] at hkeeps

/-- The ways in which a turn of a waiting call can go. -/
inductive TurnOutcome (now deadline : Nat) (locker : L) (key : K) (mode : LockMode) (s : σ)
    (t : LockTable K L) : LockTurn L → σ → LockTable K L → Prop where
  | inactive (h : Lockers.isActive s locker = false) :
    TurnOutcome now deadline locker key mode s t (.failed .notActive) s (t.abandon locker key)
  | granted {s' : σ} {t' : LockTable K L} (hactive : Lockers.isActive s locker = true)
    (h : t.attempt now locker key mode true s = (.granted, s', t')) :
    TurnOutcome now deadline locker key mode s t .granted s'
      { t' with parked := t'.parked.erase locker }
  | timedOut {s' : σ} {t' : LockTable K L} {holder : L}
    (hactive : Lockers.isActive s locker = true)
    (h : t.attempt now locker key mode true s = (.blocked holder, s', t'))
    (hlate : deadline ≤ now) :
    TurnOutcome now deadline locker key mode s t (.failed (.timeout (some holder))) s'
      ((t'.park key locker holder).2.abandon locker key)
  | waiting {s' : σ} {t' : LockTable K L} {holder : L}
    (hactive : Lockers.isActive s locker = true)
    (h : t.attempt now locker key mode true s = (.blocked holder, s', t'))
    (hearly : now < deadline) :
    TurnOutcome now deadline locker key mode s t (.waiting t'.nextSignal) s'
      (t'.park key locker holder).2

/-- What the steps of a turn come to. -/
theorem turn_eq (now deadline : Nat) (locker : L) (key : K) (mode : LockMode) (s : σ)
    (t : LockTable K L) :
    t.turn now deadline locker key mode s =
      if Lockers.isActive s locker then
        match t.attempt now locker key mode true s with
        | (.granted, s, t) => (.granted, s, { t with parked := t.parked.erase locker })
        | (.blocked holder, s, t) =>
          if deadline ≤ now then
            (.failed (.timeout (some holder)), s, (t.park key locker holder).2.abandon locker key)
          else (.waiting t.nextSignal, s, (t.park key locker holder).2)
      else (.failed .notActive, s, t.abandon locker key) := by
  cases hactive : Lockers.isActive s locker with
  | false => simp [turn, allSteps, step, hactive, LockStage.outcome]
  | true =>
      rcases hattempt : t.attempt now locker key mode true s with ⟨_ | holder, s', t'⟩
      · simp [turn, allSteps, step, hactive, hattempt, LockStage.outcome]
      · by_cases hlate : deadline ≤ now <;>
          simp [turn, allSteps, step, hactive, hattempt, hlate, park, LockStage.outcome]

/-- After its steps a turn has ended. -/
theorem allSteps_eq (now deadline : Nat) (locker : L) (key : K) (mode : LockMode) (s : σ)
    (t : LockTable K L) :
    t.allSteps now deadline locker key mode s =
      (.ended (t.turn now deadline locker key mode s).1,
        (t.turn now deadline locker key mode s).2) := by
  rw [turn_eq]
  cases hactive : Lockers.isActive s locker with
  | false => simp [allSteps, step, hactive]
  | true =>
      rcases hattempt : t.attempt now locker key mode true s with ⟨_ | holder, s', t'⟩
      · simp [allSteps, step, hactive, hattempt]
      · by_cases hlate : deadline ≤ now <;>
          simp [allSteps, step, hactive, hattempt, hlate, park]

theorem turn_outcome {answer : LockTurn L}
    (h : t.turn now deadline locker key mode s = (answer, s', t')) :
    TurnOutcome now deadline locker key mode s t answer s' t' := by
  rw [turn_eq] at h
  split at h
  · rename_i hactive
    split at h
    · rename_i heq
      cases h
      exact .granted hactive heq
    · rename_i heq
      split at h
      · rename_i hlate
        cases h
        exact .timedOut hactive heq hlate
      · rename_i hearly
        cases h
        exact .waiting hactive heq (Nat.lt_of_not_le hearly)
  · rename_i hinactive
    cases h
    exact .inactive (Bool.of_not_eq_true hinactive)

/-- One turn of a call touches one key only, -/
theorem requests_turn_of_ne {answer : LockTurn L}
    (h : t.turn now deadline locker key mode s = (answer, s', t')) (hkey : key ≠ key') :
    t'.requests key' = t.requests key' := by
  cases turn_outcome h with
  | inactive => exact requests_abandon_of_ne t locker hkey
  | @granted _ t₁ _ hattempt =>
      show t₁.requests key' = t.requests key'
      exact requests_attempt_of_ne hattempt hkey
  | timedOut _ hattempt =>
      rw [requests_abandon_of_ne _ locker hkey, requests_park]
      exact requests_attempt_of_ne hattempt hkey
  | waiting _ hattempt =>
      rw [requests_park]
      exact requests_attempt_of_ne hattempt hkey

/-- and there only the locker's own request and the requests of holders that are gone. -/
theorem turn_spec (hfinal : Lockers.Final gone) (hd : t.Distinct) {answer : LockTurn L}
    (h : t.turn now deadline locker key mode s = (answer, s', t')) :
    Turned (gone s') locker mode (t.requests key) answer (t'.requests key) := by
  cases turn_outcome h with
  | inactive =>
      have hmem := fun e => @mem_requests_abandon _ _ _ _ _ _ key locker hd e
      refine ⟨(Handled.refl (hd key)).narrow (requests_abandon_sublist t locker key) ?_,
        fun hc => by simp at hc, ?_, ?_⟩
      · intro e he hne
        exact (hmem e).mpr ⟨he, fun howner => absurd howner hne⟩
      · intro _ e he _ hgranted
        exact (hmem e).mpr ⟨he, fun _ => hgranted⟩
      · intro e he howner hqueued
        rw [((hmem e).mp he).2 howner] at hqueued
        exact absurd hqueued (by simp)
  | granted _ hattempt =>
      have hspec := attempt_spec hfinal hd hattempt
      exact ⟨hspec.toHandled, fun _ => hspec.granted rfl, fun hc => absurd rfl hc,
        fun e he howner hqueued => absurd rfl (hspec.queued e he howner hqueued).1⟩
  | @timedOut _ t₁ holder _ hattempt =>
      have hspec := attempt_spec hfinal hd hattempt
      have hpark := requests_park t₁ key locker holder
      have hd' : (t₁.park key locker holder).2.Distinct := by
        intro key'
        rw [hpark]
        by_cases hkey : key = key'
        · rw [← hkey]
          exact hspec.distinct
        · rw [requests_attempt_of_ne hattempt hkey]
          exact hd key'
      have hmem := fun e => @mem_requests_abandon _ _ _ _ _ _ key locker hd' e
      have hsub := requests_abandon_sublist (t₁.park key locker holder).2 locker key
      simp only [hpark] at hmem hsub
      refine ⟨hspec.toHandled.narrow hsub ?_, fun hc => by simp at hc, ?_, ?_⟩
      · intro e he hne
        exact (hmem e).mpr ⟨he, fun howner => absurd howner hne⟩
      · intro _ e he howner hgranted
        exact (hmem e).mpr ⟨hspec.kept_own (by simp) e he howner, fun _ => hgranted⟩
      · intro e he howner hqueued
        rw [((hmem e).mp he).2 howner] at hqueued
        exact absurd hqueued (by simp)
  | @waiting _ t₁ holder _ hattempt =>
      have hspec := attempt_spec hfinal hd hattempt
      rw [requests_park]
      exact ⟨hspec.toHandled, fun hc => by simp at hc,
        fun _ e he howner _ => hspec.kept_own (by simp) e he howner,
        fun e he howner hqueued => ⟨⟨_, rfl⟩, (hspec.queued e he howner hqueued).2.imp_right
          And.right⟩⟩

theorem Distinct.turn (hd : t.Distinct) {answer : LockTurn L}
    (h : t.turn now deadline locker key mode s = (answer, s', t')) : t'.Distinct := by
  intro key'
  by_cases hkey : key = key'
  · subst hkey
    exact (turn_spec .any hd h).distinct
  · rw [requests_turn_of_ne h hkey]
    exact hd key'

/-- A call on a key that nobody else has a request on is granted at once. -/
theorem turn_alone (hactive : Lockers.isActive s locker = true)
    (h : ∀ e ∈ t.requests key, e.owner = locker) {answer : LockTurn L}
    (hturn : t.turn now deadline locker key mode s = (answer, s', t')) :
    answer = .granted ∧ s' = s := by
  have howner : ∀ e ∈ t.entries key, e.owner = locker :=
    fun e he => h e.request (List.mem_map_of_mem he)
  have halone := @Contest.attempt_alone _ _ _ _ t.parked now locker mode true
    ⟨s, t.entries key, []⟩ howner
  have hverdict : ∀ {verdict s₁ t₁}, t.attempt now locker key mode true s = (verdict, s₁, t₁) →
      verdict = .granted ∧ s₁ = s := by
    intro verdict s₁ t₁ hattempt
    obtain ⟨c', hc, rfl, -⟩ := attempt_eq hattempt
    rw [hc] at halone
    exact halone
  cases turn_outcome hturn with
  | inactive hinactive => exact absurd (hactive.symm.trans hinactive) (by simp)
  | granted _ hattempt => exact ⟨rfl, (hverdict hattempt).2⟩
  | timedOut _ hattempt => exact absurd (hverdict hattempt).1 (by simp)
  | waiting _ hattempt => exact absurd (hverdict hattempt).1 (by simp)

/-- What every wound of somebody else keeps, a turn keeps. -/
theorem lockers_turn {R : σ → σ → Prop} (hrefl : ∀ s, R s s)
    (htrans : ∀ s₁ s₂ s₃, R s₁ s₂ → R s₂ s₃ → R s₁ s₃)
    (hwound : ∀ s l reason, l ≠ locker → R s (Lockers.wound s l reason).2) {answer : LockTurn L}
    (h : t.turn now deadline locker key mode s = (answer, s', t')) : R s s' := by
  cases turn_outcome h with
  | inactive => exact hrefl s
  | granted _ hattempt => exact lockers_attempt hrefl htrans hwound hattempt
  | timedOut _ hattempt => exact lockers_attempt hrefl htrans hwound hattempt
  | waiting _ hattempt => exact lockers_attempt hrefl htrans hwound hattempt

end LockTable

end ObjectStore
