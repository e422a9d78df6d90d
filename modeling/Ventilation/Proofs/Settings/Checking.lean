import Ventilation.Proofs.Settings.Address
import Ventilation.Web.Site
import Mathlib.Tactic.SplitIfs

namespace Ventilation

/-!
# Settings that are checked

Checking looks at everything that the server cannot do without, and takes away
nothing but an empty token.  Nobody is trusted for an empty token anyway, so a
client that connects is of the same origin whether or not the settings have been
checked, and a local one has presented the very token that is configured.
-/

namespace Settings

variable {raw settings : Settings} {presented : Option String}

/-! ## What is checked -/

/-- Checking looks whether spans are zero, and at nothing else about them. -/
theorem validate_eq_ok_iff :
    raw.validate = .ok settings ↔
      (raw.lockTimeout ≠ 0 ∧ raw.autoOff ≠ 0 ∧ raw.backoff ≠ 0) ∧
        raw.clientId ≠ "" ∧ raw.tty ≠ "" ∧ (∃ address, brokerAddress raw.broker = .ok address) ∧
        settings = { raw with token := normalToken raw.token } := by
  simp only [validate, bind, Except.bind, pure, Except.pure, throw, throwThe, MonadExceptOf.throw]
  split_ifs with noLock noAbsence noPause noName noDevice
  · simp [noLock]
  · simp [noAbsence]
  · simp [noPause]
  · simp [noName]
  · simp [noDevice]
  · cases brokerAddress raw.broker with
    | error fault => simp
    | ok address =>
      simp [noLock, noAbsence, noPause, noName, noDevice, @eq_comm _ settings]

/-- What the server cannot do without. -/
structure Usable (settings : Settings) : Prop where
  locks : settings.lockTimeout ≠ 0
  absence : settings.autoOff ≠ 0
  pause : settings.backoff ≠ 0
  client : settings.clientId ≠ ""
  device : settings.tty ≠ ""
  broker : ∃ host port, Locates settings.broker host port

theorem validate_eq_ok_iff_usable :
    raw.validate = .ok settings ↔
      raw.Usable ∧ settings = { raw with token := normalToken raw.token } := by
  rw [validate_eq_ok_iff]
  constructor
  · rintro ⟨⟨locks, absence, pause⟩, client, device, ⟨⟨host, port⟩, found⟩, same⟩
    exact ⟨⟨locks, absence, pause, client, device, host, port, brokerAddress_eq_ok_iff.mp found⟩,
      same⟩
  · rintro ⟨⟨locks, absence, pause, client, device, host, port, located⟩, same⟩
    exact ⟨⟨locks, absence, pause⟩, client, device,
      ⟨(host, port), brokerAddress_eq_ok_iff.mpr located⟩, same⟩

/-- Settings that pass the check are usable without a change, but for an empty token. -/
theorem Usable.normalize (usable : raw.Usable) :
    { raw with token := normalToken raw.token }.Usable :=
  ⟨usable.locks, usable.absence, usable.pause, usable.client, usable.device, usable.broker⟩

/-! ## Tokens -/

theorem normalToken_eq_some_iff {token : Option String} {text : String} :
    normalToken token = some text ↔ token = some text ∧ text ≠ "" := by
  cases token with
  | none => simp [normalToken]
  | some given =>
    rw [normalToken, Option.ite_none_left_eq_some, Option.some.injEq, and_comm]
    exact and_congr_right fun same => by rw [same]

theorem normalToken_of_ne {token : Option String} (filled : token ≠ some "") :
    normalToken token = token := by
  apply Option.ext
  intro text
  rw [normalToken_eq_some_iff]
  constructor
  · rintro ⟨same, -⟩
    exact same
  · rintro rfl
    exact ⟨rfl, fun empty => filled (congrArg some empty)⟩

theorem normalToken_normalToken (token : Option String) :
    normalToken (normalToken token) = normalToken token := by
  apply normalToken_of_ne
  intro empty
  exact (normalToken_eq_some_iff.mp empty).2 rfl

/-- An empty token is taken away, and any other is left alone. -/
theorem normalize_eq (settings : Settings) :
    { settings with token := normalToken settings.token } =
      if settings.token = some "" then { settings with token := none } else settings := by
  split
  · next empty =>
    rw [empty]
    rfl
  · next filled => rw [normalToken_of_ne filled]

/-- Somebody is trusted who presents the token, if there is one that is not empty. -/
theorem trusts_iff :
    settings.trusts presented = true ↔
      ∃ token, settings.token = some token ∧ token ≠ "" ∧ presented = some token := by
  unfold trusts
  cases settings.token with
  | none => simp
  | some expected =>
    cases presented with
    | none => simp
    | some given =>
      rw [Bool.and_eq_true, decide_eq_true_iff, decide_eq_true_iff]
      constructor
      · rintro ⟨filled, rfl⟩
        exact ⟨expected, rfl, filled, rfl⟩
      · rintro ⟨token, configured, filled, given⟩
        rcases Option.some.inj configured with rfl
        exact ⟨filled, (Option.some.inj given).symm⟩

/-- Whoever is trusted stays so when an empty token is taken away. -/
theorem trusts_normalized (settings : Settings) (presented : Option String) :
    { settings with token := normalToken settings.token }.trusts presented =
      settings.trusts presented := by
  rw [Bool.eq_iff_iff, trusts_iff, trusts_iff]
  apply exists_congr
  intro token
  rw [normalToken_eq_some_iff, and_assoc]
  exact and_congr_right fun _ => and_self_left

theorem originOf_eq_local_iff :
    settings.originOf presented = .local ↔
      ∃ token, settings.token = some token ∧ token ≠ "" ∧ presented = some token := by
  rw [← trusts_iff, originOf]
  cases settings.trusts presented <;> decide

end Settings

/-! ## Clients that connect -/

namespace Web

/-- A request presents a token, and presents it once. -/
def Request.Presents (request : Request) (token : String) : Prop :=
  request.query.filter (fun field => field.1 = "token".toList) =
    [("token".toList, token.toList)]

theorem single?_eq_some_iff {name : List Char} {query : List (List Char × List Char)}
    {value : String} :
    single? name query = some (some value) ↔
      query.filter (fun field => field.1 = name) = [(name, value.toList)] := by
  unfold single?
  split
  · next nothing => simp [nothing]
  · next other found alone =>
    have named : other = name := by
      have among : (other, found) ∈ query.filter fun field => field.1 = name :=
        alone ▸ List.mem_cons_self
      exact of_decide_eq_true (List.mem_filter.mp among).2
    rw [alone, named]
    simp [← String.toList_inj]
  · next nothing alone =>
    apply iff_of_false nofun
    intro same
    exact alone _ _ same

namespace Site

variable {site : Site} {request : Request} {staysOpen : Bool} {origin : Origin}

/-- A client that connects is of the origin that its token stands for. -/
theorem origin_of_connect (connects : site.handle request staysOpen = .connect origin) :
    ∃ presented, single? "token".toList request.query = some presented ∧
      origin = site.settings.originOf presented := by
  unfold handle at connects
  split_ifs at connects with permitted socketed healthy
  · unfold socket at connects
    split_ifs at connects with other asks stays
    split at connects
    · cases connects
    · next presented found => exact ⟨presented, found, (Outcome.connect.inj connects).symm⟩
  · split at connects <;> cases connects

/-- Settings that trust the same make the same of every request. -/
theorem handle_of_trusts {settings other : Settings}
    (same : ∀ presented, settings.trusts presented = other.trusts presented)
    (files : Option Files) (request : Request) (staysOpen : Bool) :
    handle ⟨settings, files⟩ request staysOpen = handle ⟨other, files⟩ request staysOpen := by
  simp only [handle, socket, Settings.originOf, same]

end Site
end Web

namespace Settings

open Web (Request Site)

/-- Checking keeps trust.  Settings pass the check exactly if they have all that the
server cannot do without, and the check takes away nothing but an empty token.  What
has passed passes again as it is, trusts the same clients as before and makes the
same of every request.  Somebody is trusted who presents the token that is
configured, unless that is empty; and a client that connects is local exactly if its
request presents that token. -/
theorem checking_keeps_trust (raw : Settings) :
    ((∃ settings, raw.validate = .ok settings) ↔ raw.Usable) ∧
    (∀ settings, raw.validate = .ok settings →
      settings = (if raw.token = some "" then { raw with token := none } else raw) ∧
        settings.validate = .ok settings ∧
        (∀ presented, settings.trusts presented = raw.trusts presented) ∧
        ∀ files request staysOpen,
          Site.handle ⟨settings, files⟩ request staysOpen =
            Site.handle ⟨raw, files⟩ request staysOpen) ∧
    (∀ presented, raw.trusts presented = true ↔
      ∃ token, raw.token = some token ∧ token ≠ "" ∧ presented = some token) ∧
    ∀ files request staysOpen origin,
      Site.handle ⟨raw, files⟩ request staysOpen = .connect origin →
        (origin = .local ↔
          ∃ token, raw.token = some token ∧ token ≠ "" ∧ request.Presents token) := by
  refine ⟨?_, ?_, fun presented => trusts_iff, ?_⟩
  · simp only [validate_eq_ok_iff_usable, exists_and_left, exists_eq, and_true]
  · intro settings passed
    rcases validate_eq_ok_iff_usable.mp passed with ⟨usable, rfl⟩
    have alike := trusts_normalized raw
    refine ⟨normalize_eq raw, ?_, alike, Site.handle_of_trusts alike⟩
    rw [validate_eq_ok_iff_usable]
    refine ⟨usable.normalize, ?_⟩
    rw [normalToken_normalToken]
  · intro files request staysOpen origin connects
    rcases Site.origin_of_connect connects with ⟨presented, found, rfl⟩
    rw [originOf_eq_local_iff]
    apply exists_congr
    intro token
    refine and_congr_right fun _ => and_congr_right fun _ => ?_
    -- The handler compares the one value that it found, so the request has no other.
    rw [Request.Presents, ← Web.single?_eq_some_iff, found, Option.some.injEq]

/-- The standard settings with a token. -/
def guarded (token : String) : Settings := { standard with token := some token }

/-- With an empty token everyone is remote, before the check and after it.  With
another one the panel that presents it is local. -/
theorem checking_keeps_trust_in_a_panel :
    (guarded "").validate = .ok standard ∧ standard.validate = .ok standard ∧
      Site.handle ⟨guarded "", none⟩ (.toConnect "/sock?token=") true = .connect .remote ∧
      Site.handle ⟨standard, none⟩ (.toConnect "/sock?token=") true = .connect .remote ∧
      Site.handle ⟨guarded "panel", none⟩ (.toConnect "/sock?token=panel") true =
        .connect .local ∧
      (Request.toConnect "/sock?token=panel").Presents "panel" := by
  have passes : (guarded "").validate = .ok standard := rfl
  have remote : Site.handle ⟨guarded "", none⟩ (.toConnect "/sock?token=") true =
      .connect .remote := by
    decide +kernel
  have connects : Site.handle ⟨guarded "panel", none⟩ (.toConnect "/sock?token=panel") true =
      .connect .local := by
    decide +kernel
  rcases (checking_keeps_trust (guarded "")).2.1 standard passes with ⟨-, again, -, alike⟩
  rcases ((checking_keeps_trust (guarded "panel")).2.2.2 _ _ _ _ connects).mp rfl with
    ⟨token, configured, -, presents⟩
  rcases Option.some.inj configured with rfl
  exact ⟨passes, again, remote, (alike _ _ _).trans remote, connects, presents⟩

end Settings
end Ventilation
