import Rosetta.Client.Dial
import Rosetta.Config.Kinds

/-!
# The deadline of a dial

`CONNECT_PARAMS` has a timeout in seconds. It becomes an `int` of milliseconds, and what is left of
it is the timeout of the socket in every round of the loop around `::connect`. To the kernel a
timeout of zero is no timeout.

* `socketTimeouts` — what the loop sets
* `OnTime` — the clock is never set back, and never shows the deadline itself
* `enforced_iff` — which deadlines are kept to
-/

namespace Rosetta

open ChannelConfig Value

/-! ## The loop -/

/-- `set_send_timeout` and `set_recv_timeout`, in the rounds of `connectLoop`. The last one is still
set when the ack is read. -/
def socketTimeouts (timeout elapsed : Int) : List (ConnectRet × Int) → List Int
  | [] => if elapsed ≤ timeout ∧ 0 < timeout then [timeout - elapsed] else []
  | (ret, elapsed') :: rest =>
    if elapsed ≤ timeout ∧ 0 < timeout then
      (timeout - elapsed) :: match ret with
        | .ok | .isConn => []
        | .failed => socketTimeouts timeout elapsed' rest
    else []

/-- The seconds and microseconds of `struct timeval`. -/
def timeval (timeout : Int) : Int × Int := (timeout.tdiv 1000, timeout.tmod 1000 * 1000)

/-- The kernel waits forever for a zero. -/
theorem timeval_eq_zero_iff (timeout : Int) : timeval timeout = (0, 0) ↔ timeout = 0 := by
  have hdiv := Int.mul_tdiv_add_tmod timeout 1000
  constructor
  · intro h
    obtain ⟨hsec, husec⟩ := Prod.mk.inj h
    omega
  · rintro rfl
    rfl

/-- The clock neither goes back nor shows the timeout, whenever the loop looks at it. -/
def OnTime (timeout : Int) (connects : List (ConnectRet × Int)) : Prop :=
  ∀ pre e post, connects = pre ++ (.failed, e) :: post →
    (∀ r ∈ pre, r.1 = .failed ∧ r.2 ≤ timeout) → 0 ≤ e ∧ e ≠ timeout

variable {timeout elapsed : Int} {connects : List (ConnectRet × Int)}

theorem onTime_nil (timeout : Int) : OnTime timeout [] := by
  intro pre e post h
  simp at h

theorem onTime_failed_cons (e : Int) (rest : List (ConnectRet × Int)) :
    OnTime timeout ((.failed, e) :: rest) ↔
      (0 ≤ e ∧ e ≠ timeout) ∧ (e ≤ timeout → OnTime timeout rest) := by
  constructor
  · intro h
    refine ⟨h [] e rest rfl (by simp), fun hle pre e' post hrest hpre => ?_⟩
    refine h ((.failed, e) :: pre) e' post (by rw [hrest, List.cons_append]) fun r hr => ?_
    rcases List.mem_cons.mp hr with rfl | hr
    · exact ⟨rfl, hle⟩
    · exact hpre r hr
  · rintro ⟨he, hrest⟩ (_ | ⟨r, pre⟩) e' post h hpre
    · obtain ⟨heq, -⟩ := List.cons.inj h
      obtain rfl := (Prod.mk.inj heq).2
      exact he
    · obtain ⟨rfl, htail⟩ := List.cons.inj h
      obtain ⟨-, hle⟩ := hpre _ List.mem_cons_self
      exact hrest hle pre e' post htail fun r hr => hpre r (List.mem_cons_of_mem _ hr)

theorem onTime_cons_of_ne_failed {ret : ConnectRet} (hret : ret ≠ .failed) (e : Int)
    (rest : List (ConnectRet × Int)) : OnTime timeout ((ret, e) :: rest) := by
  rintro (_ | ⟨r, pre⟩) e' post h hpre
  · obtain ⟨heq, -⟩ := List.cons.inj h
    exact absurd (Prod.mk.inj heq).1 hret
  · obtain ⟨rfl, -⟩ := List.cons.inj h
    exact absurd (hpre _ List.mem_cons_self).1 hret

/-- What is set in a round is what is left then, and so it is within the timeout exactly when the
time that has passed is. -/
theorem socketTimeouts_iff (htimeout : 0 < timeout) :
    (∀ v ∈ socketTimeouts timeout elapsed connects, 0 < v ∧ v ≤ timeout) ↔
      (elapsed ≤ timeout → (0 ≤ elapsed ∧ elapsed ≠ timeout) ∧ OnTime timeout connects) := by
  induction connects generalizing elapsed with
  | nil =>
    unfold socketTimeouts
    by_cases hle : elapsed ≤ timeout
    · rw [if_pos ⟨hle, htimeout⟩]
      simp only [List.mem_singleton, forall_eq, hle, onTime_nil, and_true, forall_const]
      omega
    · rw [if_neg (fun h => hle h.1)]
      simp [hle]
  | cons r rest ih =>
    obtain ⟨ret, e⟩ := r
    unfold socketTimeouts
    by_cases hle : elapsed ≤ timeout
    · have hhead : (0 < timeout - elapsed ∧ timeout - elapsed ≤ timeout) ↔
          (0 ≤ elapsed ∧ elapsed ≠ timeout) := by omega
      rw [if_pos ⟨hle, htimeout⟩, List.forall_mem_cons, hhead, forall_prop_of_true hle]
      refine and_congr_right fun _ => ?_
      cases ret with
      | ok => simp [onTime_cons_of_ne_failed]
      | isConn => simp [onTime_cons_of_ne_failed]
      | failed =>
        rw [onTime_failed_cons]
        show (∀ v ∈ socketTimeouts timeout e rest, 0 < v ∧ v ≤ timeout) ↔ _
        rw [ih]
        by_cases he : e ≤ timeout
        · simp only [he, forall_const]
        · simp only [he, false_imp_iff, true_iff, and_true]
          omega
    · rw [if_neg (fun h => hle h.1)]
      simp [hle]

/-- A round that connects has set a timeout, and so the read of the ack has one. -/
theorem socketTimeouts_ne_nil (h : connectLoop timeout elapsed connects = some true) :
    socketTimeouts timeout elapsed connects ≠ [] := by
  cases connects with
  | nil =>
    unfold connectLoop at h
    split at h
    · cases h
    · cases h
  | cons r rest =>
    obtain ⟨ret, e⟩ := r
    unfold socketTimeouts
    unfold connectLoop at h
    split at h
    · next hguard =>
      rw [if_pos hguard]
      exact List.cons_ne_nil _ _
    · cases h

/-! ## From the document -/

/-- `TIMEOUT` is this positive number. -/
def TimeoutIs (doc : Value) (seconds : Int) : Prop :=
  ∃ params, doc.member "CONNECT_PARAMS" = some (.object params) ∧
    (Value.object params).member "TIMEOUT" = some (.int seconds) ∧
    (Value.int seconds).isInt = true ∧ 0 < seconds

theorem findMember_of_member {doc x : Value} {key : String} (h : doc.member key = some x) :
    doc.findMember key = .ok (some x) := by
  cases doc with
  | object members => exact congrArg Except.ok h
  | _ => cases h

/-- What `parse_connect_params` makes of the timeout. -/
theorem parseConnectParams_of_timeout {doc : Value} {seconds : Int} (h : TimeoutIs doc seconds)
    (config : ChannelConfig) : ∃ retries, parseConnectParams doc config =
      if seconds * 1000 < 2 ^ 31 then
        .ok { config with connectTimeout := seconds * 1000, connectRetries := retries }
      else .error .overflow := by
  obtain ⟨params, hparams, hmember, hint, hpos⟩ := h
  have htimeout : connectParam (.object params) "TIMEOUT" = .ok (some seconds) := by
    rw [connectParam_eq, hmember]
    exact congrArg Except.ok (if_pos ⟨hint, hpos⟩)
  obtain ⟨retries, hretries⟩ : ∃ r, connectParam (.object params) "RETRIES" = .ok r :=
    ⟨_, connectParam_eq params "RETRIES"⟩
  unfold parseConnectParams
  rw [findMember_of_member hparams, Parse.ok_bind]
  simp only [htimeout, hretries, Parse.ok_bind, setTimeout]
  by_cases hlt : seconds * 1000 < 2 ^ 31
  · exact ⟨retries.getD config.connectRetries, by rw [if_pos hlt, if_pos hlt, Parse.ok_bind]⟩
  · exact ⟨0, by rw [if_neg hlt, if_neg hlt, Parse.error_bind]⟩

/-- What `BasicIO::init` passes to `TCPClient::connect`, for a document that is read to its end. -/
theorem connectTimeout_of_load {doc : Value} {seconds : Int} (h : TimeoutIs doc seconds)
    {config : ChannelConfig} (hload : load (some doc) = .ok config) :
    config.connectTimeout = seconds * 1000 ∧ seconds * 1000 < 2 ^ 31 := by
  obtain ⟨v, _, _, _, c₄, c₅, hdoc, -, -, -, -, h₅, rfl⟩ := load_eq_ok hload
  obtain rfl := Option.some.inj hdoc
  obtain ⟨retries, hparse⟩ := parseConnectParams_of_timeout h c₄
  rw [hparse] at h₅
  split at h₅
  · next hlt =>
    obtain rfl := Except.ok.inj h₅
    exact ⟨rfl, hlt⟩
  · cases h₅

/-- The deadline of the document reaches the loop, and in no round more than it is set, or nothing. -/
def Enforced (doc : Value) (config : ChannelConfig) (seconds : Int)
    (connects : List (ConnectRet × Int)) : Prop :=
  ∃ config', parseConnectParams doc config = .ok config' ∧
    config'.connectTimeout = seconds * 1000 ∧
    dialTimeout config'.connectTimeout = config'.connectTimeout ∧
    ∀ v ∈ socketTimeouts (dialTimeout config'.connectTimeout) 0 connects,
      0 < v ∧ v ≤ config'.connectTimeout

/-- **When the configured deadline is enforced.** In milliseconds it is an `int`, and in no round has
the clock gone back or shows the deadline itself. -/
theorem enforced_iff {doc : Value} {seconds : Int} (h : TimeoutIs doc seconds)
    (config : ChannelConfig) (connects : List (ConnectRet × Int)) :
    Enforced doc config seconds connects ↔
      seconds * 1000 < 2 ^ 31 ∧ OnTime (seconds * 1000) connects := by
  obtain ⟨retries, hparse⟩ := parseConnectParams_of_timeout h config
  obtain ⟨-, -, -, -, hpos⟩ := h
  have hdial : dialTimeout (seconds * 1000) = seconds * 1000 := if_neg (by omega)
  have hbounded : (∀ v ∈ socketTimeouts (seconds * 1000) 0 connects, 0 < v ∧ v ≤ seconds * 1000) ↔
      _ := socketTimeouts_iff (by omega)
  have hzero : (0 : Int) ≤ seconds * 1000 → (0 ≤ (0 : Int) ∧ 0 ≠ seconds * 1000) := by omega
  constructor
  · rintro ⟨config', hok, htimeout, -, hall⟩
    rw [htimeout, hdial] at hall
    rw [hparse] at hok
    split at hok
    · next hlt => exact ⟨hlt, (hbounded.mp hall (by omega)).2⟩
    · cases hok
  · rintro ⟨hlt, htime⟩
    rw [if_pos hlt] at hparse
    refine ⟨_, hparse, rfl, hdial, ?_⟩
    rw [hdial]
    exact hbounded.mpr fun hle => ⟨hzero hle, htime⟩

def timeoutDoc (seconds : Int) : Value :=
  .object [(chars "CONNECT_PARAMS", .object [(chars "TIMEOUT", .int seconds)])]

theorem timeoutIs_timeoutDoc {seconds : Int} (hint : (Value.int seconds).isInt = true)
    (hpos : 0 < seconds) : TimeoutIs (timeoutDoc seconds) seconds := ⟨_, rfl, rfl, hint, hpos⟩

/-- Two seconds, and a connection in the second round. -/
theorem enforced_iff_small : Enforced (timeoutDoc 2) {} 2 [(.failed, 500), (.ok, 501)] := by
  refine (enforced_iff (timeoutIs_timeoutDoc (by decide) (by decide)) _ _).mpr ⟨by decide, ?_⟩
  rw [onTime_failed_cons]
  exact ⟨by decide, fun _ => onTime_cons_of_ne_failed (by simp) _ _⟩

/-- The clock shows two seconds, and the timeout is `0`; `2147484` seconds are too long. -/
theorem not_enforced : ¬ Enforced (timeoutDoc 2) {} 2 [(.failed, 2000)] ∧
    ¬ Enforced (timeoutDoc 2147484) {} 2147484 [] := by
  constructor
  · rintro ⟨config', hok, -, -, hall⟩
    obtain rfl := Except.ok.inj hok
    exact absurd (hall 0 (by decide)).1 (by decide)
  · rintro ⟨config', hok, -⟩
    cases hok

end Rosetta
