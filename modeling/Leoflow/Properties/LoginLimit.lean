import Leoflow.Api.Login

/-!
# Failed logins per window

A failure counts once it is charged, and until then its request is under way. So charges and requests under
way together bound the failures of a window, and they stay within the limit as long as every request that
passes the peek finds room for one more.
-/

namespace Leoflow.Api.Login

open Auth (RateLimiter newRateLimiter)
open Auth.RateLimiter

variable {S : LoginServer} {limit : Nat} {window : Duration} {s s' : State} {ip : String}

namespace State

/-- How many logins of an address are under way. -/
def underWay (s : State) (ip : String) : Nat := s.pending.countP (·.ip = ip)

/-- How many of them have a wrong password and are not counted yet. -/
def wrong (s : State) (ip : String) : Nat := s.pending.countP (· = ⟨ip, .failed true⟩)

/-- What the limiter has charged to the client in the window in effect. -/
def charged (s : State) (ip : String) : Nat := s.limiter.charged ip s.now

theorem wrong_le_underWay (s : State) (ip : String) : s.wrong ip ≤ s.underWay ip := by
  refine List.countP_mono_left fun p _ hp => ?_
  rw [of_decide_eq_true hp]
  simp

theorem take_eq_some {p : Pending} :
    s.take p = some s' ↔ p ∈ s.pending ∧ s' = { s with pending := s.pending.erase p } := by
  unfold take
  split
  next h =>
    simp [h, eq_comm]
  next h =>
    simp [h]

section

variable {p : Pending} (h : p ∈ s.pending)
include h

theorem countP_erase (f : Pending → Bool) :
    s.pending.countP f = (s.pending.erase p).countP f + if f p then 1 else 0 := by
  rw [(List.perm_cons_erase h).countP_eq f, List.countP_cons]

theorem underWay_erase : s.underWay ip = (s.pending.erase p).countP (·.ip = ip) + if p.ip = ip then 1 else 0 := by
  rw [underWay, countP_erase h]
  simp

theorem wrong_erase : s.wrong ip =
      (s.pending.erase p).countP (· = ⟨ip, .failed true⟩) + if p = ⟨ip, .failed true⟩ then 1 else 0 := by
  rw [wrong, countP_erase h]
  simp

end

end State

/-! ## Windows -/

/-- The window in effect goes on, or it is over and nothing is charged to the next. -/
def Turned (s s' : State) (ip : String) (charge : Nat) : Prop :=
  s'.slot ip = s.slot ip ∧ s'.charged ip = s.charged ip + charge ∨ s'.slot ip = s.slot ip + 1 ∧ s'.charged ip = 0

theorem slot_of_current {st : Auth.WindowState} (h : s.limiter.current ip s.now = some st) :
    s.slot ip = s.windows ip := by
  rw [State.slot, h]; rfl

theorem slot_of_idle (h : s.limiter.current ip s.now = none) : s.slot ip = s.windows ip + 1 := by
  rw [State.slot, h]; rfl

theorem turned_tick (s : State) (ip : String) (d : Nat) : Turned s { s with now := s.now + d } ip 0 := by
  have hlater : s.now ≤ s.now + d := Int.le_add_of_nonneg_right (Int.natCast_nonneg d)
  cases hnext : s.limiter.current ip (s.now + d) with
  | some st =>
    -- the window in effect later is the one in effect now
    have hnow := current_of_later hlater hnext
    refine .inl ⟨?_, ?_⟩
    · rw [slot_of_current hnow]
      exact slot_of_current hnext
    · have hcount : s.charged ip = st.count := charged_of_current hnow
      rw [hcount]
      exact charged_of_current hnext
  | none =>
    have hzero : State.charged { s with now := s.now + d } ip = 0 := charged_of_idle hnext
    have hslot : State.slot { s with now := s.now + d } ip = s.windows ip + 1 := slot_of_idle hnext
    cases hnow : s.limiter.current ip s.now with
    | some st =>
      refine .inr ⟨?_, hzero⟩
      rw [hslot, slot_of_current hnow]
    | none =>
      refine .inl ⟨?_, ?_⟩
      · rw [hslot, slot_of_idle hnow]
      · rw [hzero, State.charged, charged_of_idle hnow]

theorem turned_charge (hlt : s.charged ip < s.limiter.limit) : Turned s (s.charge ip) ip 1 := by
  cases hnow : s.limiter.current ip s.now with
  | some st =>
    have hcount : s.charged ip = st.count := charged_of_current hnow
    have hnext := current_allow_of_current hnow (hcount ▸ hlt)
    have hwindows : (s.charge ip).windows = s.windows := by
      simp only [State.charge, State.answer, hnow]
      rfl
    refine .inl ⟨?_, ?_⟩
    · rw [slot_of_current hnow, ← hwindows]
      exact slot_of_current hnext
    · rw [hcount]
      exact charged_of_current hnext
  | none =>
    have hwindows : (s.charge ip).windows ip = s.windows ip + 1 := by
      simp only [State.charge, State.answer, hnow]
      exact Function.update_self ..
    cases hnext : (s.limiter.allow ip s.now).1.current ip s.now with
    | some st =>
      refine .inl ⟨?_, ?_⟩
      · rw [slot_of_idle hnow, ← hwindows]
        exact slot_of_current hnext
      · have hone : (s.charge ip).charged ip = st.count := charged_of_current hnext
        rw [hone, charged_allow_of_idle hnow hnext, State.charged, charged_of_idle hnow]
    | none =>
      -- a window that ends before it begins
      refine .inr ⟨?_, charged_of_idle hnext⟩
      rw [slot_of_idle hnow, ← hwindows]
      exact slot_of_idle hnext

theorem turned_charge_of_ne {other : String} (h : other ≠ ip) : Turned s (s.charge ip) other 0 := by
  have hcurrent : (s.charge ip).limiter.current other (s.charge ip).now = s.limiter.current other s.now :=
    current_allow_of_ne h s.now
  have hwindows : (s.charge ip).windows other = s.windows other := by
    simp only [State.charge, State.answer]
    split
    · rfl
    · exact Function.update_of_ne h ..
  refine .inl ⟨?_, ?_⟩
  · rw [State.slot, State.slot, hcurrent, hwindows]
  · rw [State.charged, State.charged, RateLimiter.charged, RateLimiter.charged, hcurrent]; rfl

/-! ## The invariant -/

/-- Charges and requests under way are within the limit, and they cover the failures of the window a failure
would fall into now. No failure is in a later window. -/
structure Within (limit : Nat) (s : State) : Prop where
  limited : s.limiter.limit = limit
  budget : ∀ ip, s.charged ip + s.underWay ip ≤ limit
  covered : ∀ ip, s.failures.count (ip, s.slot ip) ≤ s.charged ip + s.wrong ip
  later : ∀ ip n, s.slot ip < n → s.failures.count (ip, n) = 0
  bounded : ∀ ip n, s.failures.count (ip, n) ≤ limit

theorem Fresh.within (h : Fresh limit window s) : Within limit s := by
  have hidle : ∀ ip, s.limiter.current ip s.now = none := fun ip => by rw [h.limiter]; rfl
  have hcharged : ∀ ip, s.charged ip = 0 := fun ip => charged_of_idle (hidle ip)
  constructor
  · rw [h.limiter]; rfl
  · intro ip
    rw [hcharged, State.underWay, h.pending]
    exact Nat.zero_le _
  · intro ip
    rw [h.failures]
    exact Nat.zero_le _
  · intro ip n _
    rw [h.failures]; rfl
  · intro ip n
    rw [h.failures]
    exact Nat.zero_le _

theorem Within.turned (h : Within limit s) (hlimit : s'.limiter.limit = s.limiter.limit)
    (hfailures : s'.failures = s.failures)
    (hturned : ∀ ip, ∃ charge, Turned s s' ip charge ∧ s'.underWay ip + charge ≤ s.underWay ip ∧
      s.wrong ip ≤ s'.wrong ip + charge) : Within limit s' := by
  constructor
  · rw [hlimit, h.limited]
  · intro ip
    obtain ⟨charge, hturn, hunder, -⟩ := hturned ip
    have hbudget := h.budget ip
    rcases hturn with ⟨-, hcharged⟩ | ⟨-, hcharged⟩
    · omega
    · omega
  · intro ip
    obtain ⟨charge, hturn, -, hwrong⟩ := hturned ip
    rw [hfailures]
    rcases hturn with ⟨hslot, hcharged⟩ | ⟨hslot, -⟩
    · have hcovered := h.covered ip
      rw [hslot]
      omega
    · rw [h.later ip _ (by omega)]
      exact Nat.zero_le _
  · intro ip n hn
    obtain ⟨charge, hturn, -⟩ := hturned ip
    rw [hfailures]
    apply h.later ip n
    rcases hturn with ⟨hslot, -⟩ | ⟨hslot, -⟩
    · omega
    · omega
  · intro ip n
    rw [hfailures]
    exact h.bounded ip n

theorem Within.tick (h : Within limit s) (d : Nat) : Within limit { s with now := s.now + d } :=
  h.turned rfl rfl fun ip => ⟨0, turned_tick s ip d, le_refl _, le_refl _⟩

section

variable (h : Within limit s)
include h

theorem Within.answer (ip : String) (a : LoginAnswer) : Within limit (s.answer ip a) :=
  ⟨h.limited, h.budget, h.covered, h.later, h.bounded⟩

theorem Within.enter {p : Pending} (hroom : s.charged p.ip + s.underWay p.ip < limit) :
    Within limit { s with pending := p :: s.pending } := by
  refine ⟨h.limited, fun ip => ?_, fun ip => ?_, h.later, h.bounded⟩
  · have hbudget := h.budget ip
    change s.charged ip + (p :: s.pending).countP (·.ip = ip) ≤ limit
    rw [List.countP_cons]
    by_cases heq : p.ip = ip
    · subst heq
      simp only [decide_true, if_true]
      exact hroom
    · simp only [decide_eq_true_eq, heq, if_false]
      exact hbudget
  · apply le_trans (h.covered ip)
    apply Nat.add_le_add_left
    change s.wrong ip ≤ (p :: s.pending).countP (· = ⟨ip, .failed true⟩)
    rw [List.countP_cons]
    exact Nat.le_add_right _ _

theorem Within.note (hcover : s.failures.count (ip, s.slot ip) < s.charged ip + s.wrong ip) :
    Within limit { s with failures := (ip, s.slot ip) :: s.failures } := by
  have hle : s.charged ip + s.wrong ip ≤ limit :=
    le_trans (Nat.add_le_add_left (s.wrong_le_underWay ip) _) (h.budget ip)
  refine ⟨h.limited, h.budget, fun other => ?_, fun other n hn => ?_, fun other n => ?_⟩
  · change ((ip, s.slot ip) :: s.failures).count (other, s.slot other) ≤ s.charged other + s.wrong other
    by_cases heq : other = ip
    · subst heq
      rw [List.count_cons_self]
      exact hcover
    · rw [List.count_cons_of_ne fun hpair => heq (congrArg Prod.fst hpair).symm]
      exact h.covered other
  · change ((ip, s.slot ip) :: s.failures).count (other, n) = 0
    have hslot : s.slot other < n := hn
    rw [List.count_cons_of_ne]
    · exact h.later other n hslot
    · intro hpair
      obtain ⟨rfl, rfl⟩ := Prod.mk.inj hpair
      exact absurd hslot (lt_irrefl _)
  · change ((ip, s.slot ip) :: s.failures).count (other, n) ≤ limit
    by_cases hpair : (ip, s.slot ip) = (other, n)
    · rw [← hpair, List.count_cons_self]
      exact le_trans hcover hle
    · rw [List.count_cons_of_ne hpair]
      exact h.bounded other n

theorem Within.leave {body : Except String TokenRequest} (hp : ⟨ip, .checked body⟩ ∈ s.pending) :
    Within limit { s with pending := s.pending.erase ⟨ip, .checked body⟩ } ∧
      s.charged ip + (s.pending.erase ⟨ip, .checked body⟩).countP (·.ip = ip) < limit := by
  constructor
  · refine h.turned rfl rfl fun other => ⟨0, .inl ⟨rfl, rfl⟩, ?_, ?_⟩
    · rw [State.underWay_erase hp]
      exact Nat.le_add_right _ _
    · rw [State.wrong_erase hp]
      simp only [Pending.mk.injEq, reduceCtorEq, and_false, if_false]
      exact le_refl _
  · have hbudget := h.budget ip
    rw [State.underWay_erase hp, if_pos rfl] at hbudget
    omega

theorem Within.verified (hroom : s.charged ip + s.underWay ip < limit)
    (verdict : LoginVerdict) : Within limit (s.verified ip verdict) := by
  cases verdict with
  | answered a => exact h.answer ip a
  | failed wrongPassword =>
    have henter := h.enter (p := ⟨ip, .failed wrongPassword⟩) hroom
    cases wrongPassword with
    | false => exact henter
    | true =>
      refine henter.note ?_
      change s.failures.count (ip, s.slot ip) <
        s.charged ip + (Pending.mk ip (.failed true) :: s.pending).countP (· = ⟨ip, .failed true⟩)
      rw [List.countP_cons]
      simp only [decide_true, if_true]
      exact Nat.lt_succ_of_le (h.covered ip)

theorem Within.charge {wrongPassword : Bool} (hp : ⟨ip, .failed wrongPassword⟩ ∈ s.pending) :
    Within limit (State.charge { s with pending := s.pending.erase ⟨ip, .failed wrongPassword⟩ } ip) := by
  have hunder : s.underWay ip = _ + 1 := (State.underWay_erase hp).trans (by rw [if_pos rfl])
  have hlt : s.charged ip < s.limiter.limit := by
    have hbudget := h.budget ip
    rw [h.limited]
    omega
  refine h.turned limit_allow rfl fun other => ?_
  by_cases heq : other = ip
  · subst heq
    refine ⟨1, turned_charge hlt, le_of_eq hunder.symm, ?_⟩
    rw [State.wrong_erase hp]
    apply Nat.add_le_add_left
    split <;> decide
  · refine ⟨0, turned_charge_of_ne heq, ?_, ?_⟩
    · rw [State.underWay_erase hp]
      exact Nat.le_add_right _ _
    · rw [State.wrong_erase hp, if_neg fun hpair => heq (congrArg Pending.ip hpair).symm]
      exact le_refl _

end

/-! ## Runs -/

/-- A request finds the limit reached, or room beside the charges of the window in effect and the requests of its
client under way. -/
def Roomy (s : State) : Action → Prop
  | .peek ip _ => s.charged ip + s.underWay ip < s.limiter.limit ∨
      ∃ st, s.limiter.current ip s.now = some st ∧ s.limiter.limit ≤ st.count
  | _ => True

/-- A step with room keeps the failures within the limit. -/
theorem Within.step (h : Within limit s) {a : Action} (hroomy : Roomy s a) (hs : step S s a = some s') :
    Within limit s' := by
  cases a with
  | tick d =>
    obtain rfl := Option.some.inj hs
    exact h.tick d
  | peek ip body =>
    simp only [Login.step] at hs
    split at hs
    · obtain rfl := Option.some.inj hs
      exact h.answer ip rateLimited
    next hblocked =>
      obtain rfl := Option.some.inj hs
      rcases hroomy with hroom | ⟨st, hst, hfull⟩
      · exact h.enter (p := ⟨ip, .checked body⟩) (h.limited ▸ hroom)
      · refine absurd ?_ hblocked
        rw [blocked, hst]
        exact decide_eq_true hfull
  | verify ip body store =>
    obtain ⟨t, ht, rfl⟩ := Option.map_eq_some_iff.mp hs
    obtain ⟨hp, rfl⟩ := State.take_eq_some.mp ht
    obtain ⟨hleft, hroom⟩ := h.leave hp
    exact hleft.verified hroom _
  | charge ip wrongPassword =>
    obtain ⟨t, ht, rfl⟩ := Option.map_eq_some_iff.mp hs
    obtain ⟨hp, rfl⟩ := State.take_eq_some.mp ht
    exact h.charge hp

/-- **Failed verifications per window.** In every interleaving in which every request that comes finds the
limit reached or room for one more, at most `limit` password verifications of a client fail in one window. -/
theorem failures_within_limit (h : (system S limit window).Reaches Roomy s) (ip : String) (n : Nat) :
    s.failures.count (ip, n) ≤ limit := by
  have hwithin : Within limit s :=
    h.invariant (fun _ hi => Fresh.within hi) fun _ _ _ _ hw hroomy hs => hw.step hroomy hs
  exact hwithin.bounded ip n

/-- A server without a break-glass gate whose hashes are the passwords themselves. -/
def plainServer : LoginServer := ⟨none, fun hash password => hash == password⟩

/-- A server that has seen no login. -/
def start (limit : Nat) : State := ⟨0, newRateLimiter limit minute, [], fun _ => 0, [], []⟩

theorem fresh_start (limit : Nat) : Fresh limit minute (start limit) := ⟨rfl, rfl, rfl⟩

/-- A guess at the password of a user whose password is another. -/
def guess : Except String TokenRequest := .ok ⟨"admin", "guess", ""⟩

/-- A store where every password is the same. -/
def users : String → String → FoundLogin := fun _ _ => .user "secret"

/-- One failed login. -/
def attempt : List Action := [.peek "10.0.0.1" guess, .verify "10.0.0.1" guess users, .charge "10.0.0.1" true]

instance (s : State) (a : Action) : Decidable (Roomy s a) :=
  match a with
  | .tick _ => inferInstanceAs (Decidable True)
  | .verify .. => inferInstanceAs (Decidable True)
  | .charge .. => inferInstanceAs (Decidable True)
  | .peek ip _ =>
    match hst : s.limiter.current ip s.now with
    | none => decidable_of_iff (s.charged ip + s.underWay ip < s.limiter.limit)
        ⟨.inl, fun h => h.resolve_right fun ⟨st, h, _⟩ => Option.some_ne_none st (h.symm.trans hst)⟩
    | some st => decidable_of_iff (s.charged ip + s.underWay ip < s.limiter.limit ∨ s.limiter.limit ≤ st.count)
        ⟨Or.imp_right fun h => ⟨st, hst, h⟩, Or.imp_right fun ⟨_, h, hle⟩ => Option.some.inj (hst.symm.trans h) ▸ hle⟩

/-- Six guesses one after the other. -/
def oneByOne : State :=
  ((system plainServer 5 minute).runIf (fun s a => decide (Roomy s a)) (start 5)
    (attempt ++ attempt ++ attempt ++ attempt ++ attempt ++ [.peek "10.0.0.1" guess])).get (by decide +kernel)

theorem reaches_oneByOne : (system plainServer 5 minute).Reaches Roomy oneByOne :=
  Lib.System.Reaches.runIf (.init (fresh_start 5)) (fun _ _ h => of_decide_eq_true h) (Option.some_get _).symm

theorem failures_within_limit_oneByOne : oneByOne.failures.count ("10.0.0.1", 1) ≤ 5 :=
  failures_within_limit reaches_oneByOne "10.0.0.1" 1

/-- Six guesses at once: each peeks before the first is charged. -/
def atOnce : State :=
  ((system plainServer 5 minute).run (start 5)
    (List.replicate 6 (.peek "10.0.0.1" guess) ++ List.replicate 6 (.verify "10.0.0.1" guess users) ++
      List.replicate 6 (.charge "10.0.0.1" true))).get (by decide +kernel)

/-- Guesses made at once all run, however many there are. -/
theorem concurrent_guesses : (system plainServer 5 minute).Reachable atOnce ∧
    ¬atOnce.failures.count ("10.0.0.1", 1) ≤ 5 :=
  ⟨Lib.System.Reachable.run (.init (fresh_start 5)) (Option.some_get _).symm, by decide +kernel⟩

end Leoflow.Api.Login
