import ImportProxy.Proxy.IniFile
import Std.Data.String.ToNat

/-!
# What an initialization file can configure

Every accepted file gives valid options, with which the proxy can be constructed, and two
servers with different addresses. Every valid value of the options is written by some file.
-/

namespace ImportProxy.Proxy

open ImportProxy.Base
open ImportProxy.Detector (DuplicatePacketDetectorOptions DuplicatePacketDetector)
open ImportProxy.Frontend (FrontendOptions)
open ImportProxy.Backend (BackendOptions)

/-- What the last separator splits. -/
theorem last_separator_inj {α : Type} {sep : α} {a b x y : List α} (hx : sep ∉ x) (hy : sep ∉ y)
    (h : a ++ sep :: x = b ++ sep :: y) : a = b ∧ x = y := by
  have key {a b x y c : List α} (hx : sep ∉ x) (hb : b = a ++ c)
      (hc : sep :: x = c ++ sep :: y) : a = b ∧ x = y := by
    cases c with
    | nil =>
      rw [List.append_nil] at hb
      exact ⟨hb.symm, (List.cons.inj hc).2⟩
    | cons d c =>
      have hrest := (List.cons.inj hc).2
      exact absurd (by rw [hrest]; simp) hx
  rcases List.append_eq_append_iff.mp h with ⟨c, hb, hc⟩ | ⟨c, ha, hc⟩
  · exact key hx hb hc
  · obtain ⟨hab, hxy⟩ := key hy ha hc
    exact ⟨hab.symm, hxy.symm⟩

/-- The characters of a number are its digits. -/
theorem isDigit_of_mem_toString {n : Nat} {c : Char} (hc : c ∈ (toString n).toList) :
    c.isDigit = true := by
  have hrepr : (toString n).toList = Nat.toDigits 10 n := Nat.toList_repr
  rw [hrepr] at hc
  exact Nat.isDigit_of_mem_toDigits (by omega) (by omega) hc

/-- The byte of a digit. -/
theorem toNat_of_isDigit {c : Char} (hc : c.isDigit = true) :
    48 ≤ c.toNat ∧ c.toNat ≤ 57 ∧ c.toNat.toUInt8.toNat = c.toNat := by
  simp only [Char.isDigit, Bool.and_eq_true, decide_eq_true_eq, ge_iff_le,
    UInt32.le_iff_toNat_le] at hc
  obtain ⟨hl, hu⟩ := hc
  have hlt : c.toNat < 256 := Nat.lt_of_le_of_lt hu (by decide)
  exact ⟨hl, hu, Nat.mod_eq_of_lt hlt⟩

/-- Neither separator of an address or a path is a digit. -/
theorem byte_of_mem_number {n : Nat} {b : UInt8} (hb : b ∈ ascii (toString n)) :
    48 ≤ b.toNat ∧ b.toNat ≤ 57 := by
  obtain ⟨c, hc, rfl⟩ := List.mem_map.mp hb
  obtain ⟨hl, hu, he⟩ := toNat_of_isDigit (isDigit_of_mem_toString hc)
  rw [he]
  exact ⟨hl, hu⟩

/-- The characters of a text from its bytes. -/
theorem map_ascii {s : String} (h : ∀ c ∈ s.toList, c.toNat.toUInt8.toNat = c.toNat) :
    (ascii s).map (fun b ↦ Char.ofNat b.toNat) = s.toList := by
  unfold ascii
  rw [List.map_map]
  refine (List.map_congr_left fun c hc ↦ ?_).trans (List.map_id _)
  simp only [Function.comp_apply, h c hc, Char.ofNat_toNat, id]

theorem map_ascii_toString (n : Nat) :
    (ascii (toString n)).map (fun b ↦ Char.ofNat b.toNat) = (toString n).toList :=
  map_ascii fun _ hc ↦ (toNat_of_isDigit (isDigit_of_mem_toString hc)).2.2

/-- Numbers with the same digits are the same. -/
theorem ascii_toString_inj {m n : Nat} (h : ascii (toString m) = ascii (toString n)) : m = n := by
  have hchars : (toString m).toList = (toString n).toList := by
    rw [← map_ascii_toString, ← map_ascii_toString, h]
  exact Nat.repr_injective (String.toList_inj.mp hchars)

/-- An address tells its host and its port. -/
theorem addressOf_inj {host host' : Bytes} {port port' : UInt16}
    (h : addressOf host port = addressOf host' port') : host = host' ∧ port = port' := by
  have hcolon (n : Nat) : (58 : UInt8) ∉ ascii (toString n) := by
    intro hm
    have hd := byte_of_mem_number hm
    simp at hd
  have hone : ascii ":" = [58] := rfl
  unfold addressOf at h
  rw [hone, List.append_assoc, List.append_assoc] at h
  obtain ⟨hhost, hport⟩ := last_separator_inj (hcolon _) (hcolon _) h
  exact ⟨hhost, UInt16.toNat_inj.mp (ascii_toString_inj hport)⟩

/-- What the setters of `GRPCOptions` leave: a flag is set exactly when its text is not empty. -/
structure ValidGRPC (options : GRPCOptions) : Prop where
  host : options.mHost ≠ []
  /-- The host has no blanks. -/
  graphic : ∀ c ∈ options.mHost, Frontend.isspace c = false
  port : options.mPort ≠ 0
  key : options.mHaveServerKey = !options.mServerKey.isEmpty
  certificate : options.mHaveServerCertificate = !options.mServerCertificate.isEmpty
  /-- The key and the certificate come together. -/
  together : options.mHaveServerKey = options.mHaveServerCertificate
  client : options.mHaveClientCertificate = !options.mClientCertificate.isEmpty
  token : options.mHaveAccessToken = !options.mAccessToken.isEmpty
  /-- A token is only asked for with a key and a certificate. -/
  secured : options.mHaveAccessToken = true → options.mHaveServerKey = true

section GRPC

variable {surroundings : Surroundings} {name : Bytes} {options options' : GRPCOptions}

theorem setHost_eq_ok {host : Bytes} : setHost options host = .ok options' ↔
    (host.filter fun c ↦ !Frontend.isspace c) ≠ [] ∧
      { options with mHost := host.filter fun c ↦ !Frontend.isspace c } = options' := by
  unfold setHost
  cases h : (host.filter fun c ↦ !Frontend.isspace c) <;> simp

theorem setPort_eq_ok {port : UInt16} : setPort options port = .ok options' ↔
    port ≠ 0 ∧ { options with mPort := port } = options' := by
  have hone : port < 1 ↔ port = 0 := by
    rw [UInt16.lt_iff_toNat_lt, ← UInt16.toNat_inj]
    exact Nat.lt_one_iff
  unfold setPort
  by_cases h : port = 0 <;> simp [hone, h]

theorem setServerKey_eq_ok {key : Bytes} : setServerKey options key = .ok options' ↔
    key ≠ [] ∧ { options with mHaveServerKey := true, mServerKey := key } = options' := by
  unfold setServerKey
  cases key <;> simp

theorem setServerCertificate_eq_ok {cert : Bytes} :
    setServerCertificate options cert = .ok options' ↔ cert ≠ [] ∧
      { options with mHaveServerCertificate := true, mServerCertificate := cert } = options' := by
  unfold setServerCertificate
  cases cert <;> simp

theorem setClientCertificate_eq_ok {cert : Bytes} :
    setClientCertificate options cert = .ok options' ↔ cert ≠ [] ∧
      { options with mHaveClientCertificate := true, mClientCertificate := cert } = options' := by
  unfold setClientCertificate
  cases cert <;> simp

theorem setAccessToken_eq_ok {token : Bytes} : setAccessToken options token = .ok options' ↔
    token ≠ [] ∧ { options with mHaveAccessToken := true, mAccessToken := token } = options' := by
  unfold setAccessToken
  cases token <;> simp

theorem ValidGRPC.setHost (h : ValidGRPC options) {host : Bytes}
    (hset : setHost options host = .ok options') : ValidGRPC options' := by
  obtain ⟨hne, rfl⟩ := setHost_eq_ok.mp hset
  refine { h with host := hne, graphic := fun c hc ↦ ?_ }
  have hfilter := (List.mem_filter.mp hc).2
  simpa using hfilter

theorem ValidGRPC.setPort (h : ValidGRPC options) {port : UInt16}
    (hset : setPort options port = .ok options') : ValidGRPC options' := by
  obtain ⟨hne, rfl⟩ := setPort_eq_ok.mp hset
  exact { h with port := hne }

/-- A key without its certificate, or the other way round, is not set. -/
theorem ValidGRPC.withServerCredentials (h : ValidGRPC options)
    (hset : withServerCredentials surroundings name options = .ok options') :
    ValidGRPC options' := by
  unfold Proxy.withServerCredentials at hset
  dsimp only at hset
  split at hset
  · split at hset
    · cases hset
    · split at hset
      · cases hset
      · obtain ⟨key, -, hset⟩ := bind_eq_ok.mp hset
        obtain ⟨withKey, hkey, hset⟩ := bind_eq_ok.mp hset
        obtain ⟨cert, -, hcert⟩ := bind_eq_ok.mp hset
        obtain ⟨hkeyNe, rfl⟩ := setServerKey_eq_ok.mp hkey
        obtain ⟨hcertNe, rfl⟩ := setServerCertificate_eq_ok.mp hcert
        exact { h with
          key := by simpa using hkeyNe
          certificate := by simpa using hcertNe
          together := rfl
          secured := fun _ ↦ rfl }
  · cases hset
    exact h

theorem ValidGRPC.withAccessToken (h : ValidGRPC options)
    (hset : withAccessToken surroundings name options = .ok options') : ValidGRPC options' := by
  unfold Proxy.withAccessToken at hset
  split at hset
  · cases hset
    exact h
  · split at hset
    · cases hset
    · next hsecured =>
      obtain ⟨htoken, rfl⟩ := setAccessToken_eq_ok.mp hset
      have hkey : options.mHaveServerKey = true := by
        simp only [GRPCOptions.getServerKey, Bool.or_eq_true, not_or] at hsecured
        by_contra hno
        simp [hno] at hsecured
      exact { h with
        token := by simpa using htoken
        secured := fun _ ↦ hkey }

theorem ValidGRPC.withClientCertificate (h : ValidGRPC options)
    (hset : withClientCertificate surroundings name options = .ok options') :
    ValidGRPC options' := by
  unfold Proxy.withClientCertificate at hset
  dsimp only at hset
  split at hset
  · split at hset
    · cases hset
    · obtain ⟨contents, -, hset⟩ := bind_eq_ok.mp hset
      obtain ⟨hcert, rfl⟩ := setClientCertificate_eq_ok.mp hset
      exact { h with client := by simpa using hcert }
  · cases hset
    exact h

/-- The defaults pass the checks of the setters. -/
theorem validGRPC_default : ValidGRPC {} where
  host := by decide
  graphic := by decide +kernel
  port := by decide
  key := rfl
  certificate := rfl
  together := rfl
  client := rfl
  token := rfl
  secured := nofun

/-- Every section that is accepted gives valid options. -/
theorem validGRPC_of_getGRPCOptions {isFrontEnd : Bool}
    (h : getGRPCOptions surroundings name isFrontEnd = .ok options) : ValidGRPC options := by
  unfold getGRPCOptions at h
  dsimp only at h
  split at h
  · cases h
  · obtain ⟨withHost, hhost, h⟩ := bind_eq_ok.mp h
    obtain ⟨withDefaultPort, hdefault, h⟩ := bind_eq_ok.mp h
    obtain ⟨withPort, hport, h⟩ := bind_eq_ok.mp h
    obtain ⟨withCredentials, hcredentials, h⟩ := bind_eq_ok.mp h
    obtain ⟨withToken, htoken, hclient⟩ := bind_eq_ok.mp h
    exact (((((validGRPC_default.setHost hhost).setPort hdefault).setPort hport
      ).withServerCredentials hcredentials).withAccessToken htoken).withClientCertificate hclient

/-- The key and the certificate do not change the token. -/
theorem getAccessToken_withServerCredentials
    (hset : withServerCredentials surroundings name options = .ok options') :
    options'.getAccessToken = options.getAccessToken := by
  unfold withServerCredentials at hset
  dsimp only at hset
  split at hset
  · split at hset
    · cases hset
    · split at hset
      · cases hset
      · obtain ⟨key, -, hset⟩ := bind_eq_ok.mp hset
        obtain ⟨withKey, hkey, hset⟩ := bind_eq_ok.mp hset
        obtain ⟨cert, -, hcert⟩ := bind_eq_ok.mp hset
        obtain ⟨-, rfl⟩ := setServerKey_eq_ok.mp hkey
        obtain ⟨-, rfl⟩ := setServerCertificate_eq_ok.mp hcert
        rfl
  · cases hset
    rfl

/-- The token of the options is the one of their section. -/
theorem getAccessToken_of_getGRPCOptions {isFrontEnd : Bool}
    (h : getGRPCOptions surroundings name isFrontEnd = .ok options) :
    options.getAccessToken = surroundings.getOptional (name ++ ascii ".accessToken") := by
  cases hsection : surroundings.getOptional (name ++ ascii ".accessToken") with
  | some token => exact (getGRPCOptions_ok h hsection).2.1
  | none =>
    unfold getGRPCOptions at h
    dsimp only at h
    split at h
    · cases h
    · obtain ⟨withHost, hhost, h⟩ := bind_eq_ok.mp h
      obtain ⟨withDefaultPort, hdefault, h⟩ := bind_eq_ok.mp h
      obtain ⟨withPort, hport, h⟩ := bind_eq_ok.mp h
      obtain ⟨withCredentials, hcredentials, h⟩ := bind_eq_ok.mp h
      obtain ⟨withToken, htoken, hclient⟩ := bind_eq_ok.mp h
      obtain ⟨-, rfl⟩ := setHost_eq_ok.mp hhost
      obtain ⟨-, rfl⟩ := setPort_eq_ok.mp hdefault
      obtain ⟨-, rfl⟩ := setPort_eq_ok.mp hport
      have hsame : withToken = withCredentials := by
        rw [withAccessToken, hsection] at htoken
        cases htoken
        rfl
      rw [(withClientCertificate_ok hclient).1, hsame,
        getAccessToken_withServerCredentials hcredentials]
      rfl

end GRPC

theorem mapError_eq_ok {ε ε' α : Type} {x : Except ε α} {f : ε → ε'} {a : α} :
    x.mapError f = .ok a ↔ x = .ok a := by
  cases x <;> simp [Except.mapError]

theorem orThrow_eq_ok {α : Type} {error : IniError} {x : Option α} {a : α} :
    orThrow error x = .ok a ↔ x = some a := by
  cases x <;> simp [orThrow]

/-- A setter that checks a number. -/
theorem check_map_eq_some {α : Type} {least n : Int} {f : AtLeast least → α} {a : α} :
    (AtLeast.check least n).map f = some a ↔ ∃ h : least ≤ n, f ⟨n, h⟩ = a := by
  unfold AtLeast.check
  by_cases hlt : n < least
  · rw [dif_pos hlt]
    simp only [Option.map_none, reduceCtorEq, false_iff, not_exists]
    exact fun h ↦ absurd h (by omega)
  · rw [dif_neg hlt, Option.map_some, Option.some.injEq]
    exact ⟨fun h ↦ ⟨by omega, h⟩, fun h ↦ h.2⟩

theorem setMaximumMessageSizeInBytes_eq_some {settings settings' : FrontendSettings} {n : Int} :
    settings.setMaximumMessageSizeInBytes n = some settings' ↔
      ∃ h : 1 ≤ n, { settings with mMaximumMessageSizeInBytes := ⟨n, h⟩ } = settings' :=
  check_map_eq_some

theorem setMaximumNumberOfPublishers_eq_some {options options' : FrontendOptions} {n : Int} :
    options.setMaximumNumberOfPublishers n = some options' ↔
      ∃ h : 1 ≤ n, { options with mMaximumNumberOfPublishers := ⟨n, h⟩ } = options' :=
  check_map_eq_some

theorem setMaximumNumberOfConsecutiveInvalidMessages_eq_some {options options' : FrontendOptions}
    {n : Int} : options.setMaximumNumberOfConsecutiveInvalidMessages n = some options' ↔
      ∃ h : 0 ≤ n, { options with mMaximumConsecutiveInvalidMessages := ⟨n, h⟩ } = options' :=
  check_map_eq_some

theorem setMaximumNumberOfSubscribers_eq_some {options options' : BackendOptions} {n : Int} :
    options.setMaximumNumberOfSubscribers n = some options' ↔
      ∃ h : 1 ≤ n, { options with mMaximumNumberOfSubscribers := ⟨n, h⟩ } = options' :=
  check_map_eq_some

theorem setStreamCapacity_eq_some {options options' : BackendOptions} {n : Int} :
    options.setQueueCapacity n = some options' ↔
      ∃ h : 1 ≤ n, { options with mQueueCapacity := ⟨n, h⟩ } = options' :=
  check_map_eq_some

theorem setQueueCapacity_eq_some {options options' : ProxyOptions} {n : Int} :
    options.setQueueCapacity n = some options' ↔
      ∃ h : 1 ≤ n, { options with mQueueCapacity := ⟨n, h⟩ } = options' :=
  check_map_eq_some

/-- The numbers of the options of the frontend. -/
def FrontendSettings.numbers (settings : FrontendSettings) : List Int :=
  [settings.mMaximumMessageSizeInBytes.value, settings.mMaximumNumberOfPublishers.value,
    settings.mMaximumConsecutiveInvalidMessages.value]

/-- The numbers of the options of the backend. -/
def backendNumbers (options : BackendOptions) : List Int :=
  [options.mMaximumNumberOfSubscribers.value, options.mQueueCapacity.value]

/-- The frontend of the options. -/
def ProxySettings.frontend (settings : ProxySettings) : FrontendSettings :=
  { settings.mFrontendOptions with
    mMaximumMessageSizeInBytes := settings.mMaximumMessageSizeInBytes }

/-- Options of a detector that has been sized by a number, or by seconds. -/
def SizedBy (options : DuplicatePacketDetectorOptions) (n : Int) : Prop :=
  options = { mCircularBufferSize := n, mCircularBufferDuration := -1 } ∨
    options = { mCircularBufferSize := -1, mCircularBufferDuration := n }

/-- What an accepted initialization file gives. -/
structure ValidSettings (settings : ProxySettings) : Prop where
  frontend : ValidGRPC settings.mFrontendOptions.mGRPCOptions
  backend : ValidGRPC settings.mBackendOptions.mGRPCOptions
  /-- The two servers listen at different addresses. -/
  apart : makeAddress settings.mFrontendOptions.mGRPCOptions ≠
    makeAddress settings.mBackendOptions.mGRPCOptions
  frontendNumbers : ∀ n ∈ settings.frontend.numbers, InInt32 n
  backendNumbers : ∀ n ∈ backendNumbers settings.mBackendOptions, InInt32 n
  queueCapacity : InInt32 settings.mQueueCapacity.value
  detector : settings.mHaveDuplicatePacketDetectorOptions = true →
    ∃ n, 0 < n ∧ InInt32 n ∧ SizedBy settings.mDuplicatePacketDetectorOptions n
  noDetector : settings.mHaveDuplicatePacketDetectorOptions = false →
    settings.mDuplicatePacketDetectorOptions = {}

section Accepted

variable {ini : IniFile}

theorem inInt32_of_getOptionalInt {path : Bytes} {n : Int}
    (h : ini.getOptionalInt path = some n) : InInt32 n := by
  obtain ⟨m, -, rfl⟩ := Option.map_eq_some_iff.mp h
  exact ⟨m.le_toInt, m.toInt_lt⟩

theorem inInt32_getInt {path : Bytes} {default : Int} (h : InInt32 default) :
    InInt32 (ini.getInt path default) := by
  unfold IniFile.getInt
  cases hget : ini.getOptionalInt path with
  | none => exact h
  | some n => exact inInt32_of_getOptionalInt hget

theorem getFrontendOptions_ok {settings : FrontendSettings}
    (h : getFrontendOptions ini = .ok settings) :
    getGRPCOptions ini.toSurroundings (ascii "Frontend") true = .ok settings.mGRPCOptions ∧
      ∀ n ∈ settings.numbers, InInt32 n := by
  unfold getFrontendOptions at h
  obtain ⟨grpcOptions, hgrpc, h⟩ := bind_eq_ok.mp h
  obtain ⟨withSize, hsize, h⟩ := bind_eq_ok.mp h
  obtain ⟨withPublishers, hpublishers, h⟩ := bind_eq_ok.mp h
  obtain ⟨withMessages, hmessages, h⟩ := bind_eq_ok.mp h
  obtain ⟨_, rfl⟩ := setMaximumMessageSizeInBytes_eq_some.mp (orThrow_eq_ok.mp hsize)
  obtain ⟨_, rfl⟩ := setMaximumNumberOfPublishers_eq_some.mp (orThrow_eq_ok.mp hpublishers)
  obtain ⟨_, rfl⟩ := setMaximumNumberOfConsecutiveInvalidMessages_eq_some.mp
    (orThrow_eq_ok.mp hmessages)
  cases h
  refine ⟨mapError_eq_ok.mp hgrpc, ?_⟩
  simp only [FrontendSettings.numbers, List.forall_mem_cons]
  have hsize : InInt32 8192 := by decide
  have hpublishers : InInt32 64 := by decide
  have hmessages : InInt32 10 := by decide
  exact ⟨inInt32_getInt hsize, inInt32_getInt hpublishers, inInt32_getInt hmessages,
    List.forall_mem_nil _⟩

theorem getBackendOptions_ok {options : BackendOptions} (h : getBackendOptions ini = .ok options) :
    getGRPCOptions ini.toSurroundings (ascii "Backend") false = .ok options.mGRPCOptions ∧
      ∀ n ∈ backendNumbers options, InInt32 n := by
  unfold getBackendOptions at h
  obtain ⟨grpcOptions, hgrpc, h⟩ := bind_eq_ok.mp h
  obtain ⟨withSubscribers, hsubscribers, hcapacity⟩ := bind_eq_ok.mp h
  obtain ⟨_, rfl⟩ := setMaximumNumberOfSubscribers_eq_some.mp (orThrow_eq_ok.mp hsubscribers)
  obtain ⟨_, rfl⟩ := setStreamCapacity_eq_some.mp (orThrow_eq_ok.mp hcapacity)
  refine ⟨mapError_eq_ok.mp hgrpc, ?_⟩
  simp only [backendNumbers, List.forall_mem_cons]
  have hsubscribers : InInt32 32 := by decide
  have hcapacity : InInt32 1024 := by decide
  exact ⟨inInt32_getInt hsubscribers, inInt32_getInt hcapacity, List.forall_mem_nil _⟩

theorem setDuplicatePacketDetectorOptions_of_sizedBy (options : ProxyOptions)
    {detectorOptions : DuplicatePacketDetectorOptions} {n : Int} (hn : 0 < n)
    (h : SizedBy detectorOptions n) :
    options.setDuplicatePacketDetectorOptions detectorOptions = some { options with
      mDuplicatePacketDetectorOptions := detectorOptions
      mHaveDuplicatePacketDetectorOptions := true } := by
  have hpos : n > 0 := hn
  unfold ProxyOptions.setDuplicatePacketDetectorOptions
  rcases h with rfl | rfl <;>
    simp [DuplicatePacketDetectorOptions.getCircularBufferSize,
      DuplicatePacketDetectorOptions.getCircularBufferDuration, hpos]

/-- A detector that is asked for is sized by a positive number. -/
theorem withDuplicatePacketDetectorOptions_ok {options options' : ProxyOptions}
    (h : withDuplicatePacketDetectorOptions ini options = .ok options') :
    options' = options ∨ ∃ n detectorOptions, 0 < n ∧ InInt32 n ∧
      SizedBy detectorOptions n ∧ { options with
        mDuplicatePacketDetectorOptions := detectorOptions
        mHaveDuplicatePacketDetectorOptions := true } = options' := by
  unfold withDuplicatePacketDetectorOptions at h
  dsimp only at h
  split at h
  · next n hsize =>
    split at h
    · cases h
    · next hn =>
      obtain ⟨detectorOptions, hdetector, hset⟩ := bind_eq_ok.mp h
      have hset := orThrow_eq_ok.mp hset
      have hdetector := mapError_eq_ok.mp hdetector
      unfold DuplicatePacketDetectorOptions.setCircularBufferSize at hdetector
      rw [if_neg (by omega)] at hdetector
      cases hdetector
      have hsized : SizedBy { mCircularBufferSize := n, mCircularBufferDuration := -1 } n :=
        Or.inl rfl
      rw [setDuplicatePacketDetectorOptions_of_sizedBy options (by omega) hsized] at hset
      exact Or.inr ⟨n, _, by omega, inInt32_of_getOptionalInt hsize, hsized,
        Option.some.inj hset⟩
  · split at h
    · next n hduration =>
      split at h
      · cases h
      · next hn =>
        obtain ⟨detectorOptions, hdetector, hset⟩ := bind_eq_ok.mp h
        have hset := orThrow_eq_ok.mp hset
        have hdetector := mapError_eq_ok.mp hdetector
        unfold DuplicatePacketDetectorOptions.setCircularBufferDuration at hdetector
        rw [if_neg (by omega)] at hdetector
        cases hdetector
        have hsized : SizedBy { mCircularBufferSize := -1, mCircularBufferDuration := n } n :=
          Or.inr rfl
        rw [setDuplicatePacketDetectorOptions_of_sizedBy options (by omega) hsized] at hset
        exact Or.inr ⟨n, _, by omega, inInt32_of_getOptionalInt hduration, hsized,
          Option.some.inj hset⟩
    · cases h
      exact Or.inl rfl

/-- Every initialization file that is accepted gives valid options, those of gRPC from the two
sections. -/
theorem getProxyOptions_ok {settings : ProxySettings} (h : getProxyOptions ini = .ok settings) :
    getGRPCOptions ini.toSurroundings (ascii "Frontend") true =
        .ok settings.mFrontendOptions.mGRPCOptions ∧
      getGRPCOptions ini.toSurroundings (ascii "Backend") false =
        .ok settings.mBackendOptions.mGRPCOptions ∧ ValidSettings settings := by
  unfold getProxyOptions at h
  obtain ⟨withCapacity, hcapacity, h⟩ := bind_eq_ok.mp h
  obtain ⟨frontend, hfrontend, h⟩ := bind_eq_ok.mp h
  obtain ⟨backend, hbackend, h⟩ := bind_eq_ok.mp h
  dsimp only at h
  split at h
  · cases h
  · next hsame =>
    obtain ⟨withDetector, hdetector, hsettings⟩ := bind_eq_ok.mp h
    obtain ⟨_, rfl⟩ := setQueueCapacity_eq_some.mp (orThrow_eq_ok.mp hcapacity)
    obtain ⟨hsection, hnumbers⟩ := getFrontendOptions_ok hfrontend
    obtain ⟨hsection', hnumbers'⟩ := getBackendOptions_ok hbackend
    have hgrpc := validGRPC_of_getGRPCOptions hsection
    have hgrpc' := validGRPC_of_getGRPCOptions hsection'
    have hapart : makeAddress frontend.mGRPCOptions ≠ makeAddress backend.mGRPCOptions :=
      fun he ↦ hsame (addressOf_inj he)
    have hdefault : InInt32 8192 := by decide
    cases hsettings
    rcases withDuplicatePacketDetectorOptions_ok hdetector with rfl |
      ⟨n, detectorOptions, hn, hrange, hsized, rfl⟩
    · exact ⟨hsection, hsection', hgrpc, hgrpc', hapart, hnumbers, hnumbers',
        inInt32_getInt hdefault, fun hx ↦ absurd hx Bool.false_ne_true, fun _ ↦ rfl⟩
    · exact ⟨hsection, hsection', hgrpc, hgrpc', hapart, hnumbers, hnumbers',
        inInt32_getInt hdefault, fun _ ↦ ⟨n, hn, hrange, hsized⟩,
        fun hx ↦ absurd hx.symm Bool.false_ne_true⟩

theorem validSettings_of_getProxyOptions {settings : ProxySettings}
    (h : getProxyOptions ini = .ok settings) : ValidSettings settings := (getProxyOptions_ok h).2.2

end Accepted

/-- With valid options the constructor of the proxy does not throw. -/
theorem ValidSettings.new_ok {settings : ProxySettings} (h : ValidSettings settings) :
    ∃ state, ProxyState.new settings.toProxyOptions = .ok state := by
  unfold ProxyState.new ProxyOptions.getDuplicatePacketDetectorOptions
  cases hhave : settings.mHaveDuplicatePacketDetectorOptions with
  | false => exact ⟨_, rfl⟩
  | true =>
    obtain ⟨n, hn, -, hsized⟩ := h.detector hhave
    have hnew : ∃ detector,
        DuplicatePacketDetector.new settings.mDuplicatePacketDetectorOptions = .ok detector := by
      have hpos : n > 0 := hn
      have hnot : ¬n ≤ 0 := by omega
      unfold DuplicatePacketDetector.new
      rcases hsized with he | he
      · simp [he, DuplicatePacketDetectorOptions.getCircularBufferSize,
          DuplicatePacketDetectorOptions.getCircularBufferDuration, hpos, hnot]
      · simp [he, DuplicatePacketDetectorOptions.getCircularBufferDuration, hpos, hnot]
    obtain ⟨detector, hdetector⟩ := hnew
    rw [if_pos rfl]
    simp only [hdetector]
    exact ⟨_, rfl⟩

/-- A collector to which something is exported. -/
def Collector (url : Bytes) : Prop := ∃ host port, host ≠ [] ∧ url = addressOf host port

/-- What stands behind the URL of a collector: nothing, or a path. -/
def CollectorPath (suffix : Bytes) : Prop := suffix = [] ∨ ∃ rest, suffix = ascii "/" ++ rest

/-- Exported logs have a collector, and the other exporter has its defaults. -/
def ValidLogs (options : ProgramOptions) : Prop :=
  match options.exportLogs, options.exportLogsWithHTTP with
  | false, _ => options.otelHTTPLogOptions = {} ∧ options.otelGRPCLogOptions = {}
  | true, true => Collector options.otelHTTPLogOptions.url ∧
      CollectorPath options.otelHTTPLogOptions.suffix ∧ options.otelGRPCLogOptions = {}
  | true, false => Collector options.otelGRPCLogOptions.url ∧ options.otelHTTPLogOptions = {}

/-- Exported metrics have a collector and positive times, and the other exporter has its
defaults. -/
def ValidMetrics (options : ProgramOptions) : Prop :=
  match options.exportMetrics, options.exportMetricsWithHTTP with
  | false, _ => options.otelHTTPMetricsOptions = {} ∧ options.otelGRPCMetricsOptions = {}
  | true, true => Collector options.otelHTTPMetricsOptions.url ∧
      CollectorPath options.otelHTTPMetricsOptions.suffix ∧
      0 < options.otelHTTPMetricsOptions.exportInterval ∧
      0 < options.otelHTTPMetricsOptions.exportTimeOut ∧ options.otelGRPCMetricsOptions = {}
  | true, false => Collector options.otelGRPCMetricsOptions.url ∧
      0 < options.otelGRPCMetricsOptions.exportInterval ∧
      0 < options.otelGRPCMetricsOptions.exportTimeOut ∧ options.otelHTTPMetricsOptions = {}

/-- What an initialization file that exists and is accepted gives. -/
structure ValidProgram (options : ProgramOptions) : Prop where
  settings : ValidSettings options.proxyOptions
  applicationName : options.applicationName ≠ []
  logs : ValidLogs options
  metrics : ValidMetrics options

section Program

variable {withOTLPGRPC : Bool} {ini : IniFile} {options options' : ProgramOptions}

/-- A URL that is not empty is that of a collector. -/
theorem collector_of_ne {name : Bytes} (h : (getOTelCollectorURL ini name).isEmpty = false) :
    Collector (getOTelCollectorURL ini name) := by
  unfold getOTelCollectorURL at h ⊢
  dsimp only at h ⊢
  split
  · next hhost => simp [hhost] at h
  · next hhost => exact ⟨_, _, by simpa using hhost, rfl⟩

/-- The URL of a collector ends with a digit, so its path is set apart by a slash. -/
theorem collectorPath_withSlash {url : Bytes} (h : Collector url) (suffix : Bytes) :
    CollectorPath (withSlash url suffix) := by
  obtain ⟨host, port, hhost, rfl⟩ := h
  have hslash : (ascii "/").isSuffixOf (addressOf host port) = false := by
    apply Bool.eq_false_iff.mpr
    intro hsuffix
    obtain ⟨front, hfront⟩ := List.isSuffixOf_iff_suffix.mp hsuffix
    have hdigits : ascii (toString port.toNat) ≠ [] := by
      intro hnil
      have hchars := map_ascii_toString port.toNat
      rw [hnil] at hchars
      have hrepr : (toString port.toNat).toList = Nat.toDigits 10 port.toNat := Nat.toList_repr
      exact Nat.toDigits_ne_nil (hrepr.symm.trans hchars.symm)
    have hlast : (ascii (toString port.toNat)).getLast? = some 47 := by
      have hboth := congrArg List.getLast? hfront
      have hone : ascii "/" = [47] := rfl
      rw [hone, List.getLast?_concat, addressOf, List.getLast?_append_of_ne_nil _ hdigits] at hboth
      exact hboth.symm
    have hbyte := byte_of_mem_number (List.mem_of_getLast? hlast)
    simp at hbyte
  have hne : (addressOf host port).isEmpty = false := by
    cases host with
    | nil => exact absurd rfl hhost
    | cons c host => rfl
  unfold withSlash
  by_cases hempty : suffix = []
  · rw [if_neg (by simp [hempty])]
    exact Or.inl hempty
  · by_cases hslashed : (ascii "/").isPrefixOf suffix = true
    · rw [if_neg (by simp [hslashed])]
      obtain ⟨rest, hrest⟩ := List.isPrefixOf_iff_prefix.mp hslashed
      exact Or.inr ⟨rest, hrest.symm⟩
    · rw [if_pos (by simp [hne, hempty, hslash, hslashed])]
      exact Or.inr ⟨suffix, rfl⟩

theorem getOTelMetricsIntervalAndTimeOut_ok {name : Bytes}
    {interval timeOut interval' timeOut' : Int}
    (h : getOTelMetricsIntervalAndTimeOut ini name interval timeOut = .ok (interval', timeOut')) :
    0 < interval' ∧ 0 < timeOut' := by
  unfold getOTelMetricsIntervalAndTimeOut at h
  dsimp only at h
  split at h
  · cases h
  · split at h
    · cases h
    · cases h
      omega

/-- The exporter of the logs is chosen once. -/
theorem withLogOptions_ok (h : withLogOptions withOTLPGRPC ini options = .ok options')
    (hexport : options.exportLogs = false) (hlogs : ValidLogs options)
    (hmetrics : ValidMetrics options) :
    ValidLogs options' ∧ ValidMetrics options' ∧
      options'.exportMetrics = options.exportMetrics ∧
        options'.applicationName = options.applicationName := by
  have hdefaults : options.otelHTTPLogOptions = {} ∧ options.otelGRPCLogOptions = {} := by
    unfold ValidLogs at hlogs
    rw [hexport] at hlogs
    exact hlogs
  unfold withLogOptions at h
  dsimp only at h
  split at h
  · split at h
    · cases h
      exact ⟨hlogs, hmetrics, rfl, rfl⟩
    · next hurl =>
      have hcollector := collector_of_ne (Bool.eq_false_iff.mpr hurl)
      cases h
      exact ⟨⟨hcollector, collectorPath_withSlash hcollector _, hdefaults.2⟩, hmetrics, rfl, rfl⟩
  · split at h
    · split at h
      · cases h
      · split at h
        · cases h
          exact ⟨hlogs, hmetrics, rfl, rfl⟩
        · next hurl =>
          have hcollector := collector_of_ne (Bool.eq_false_iff.mpr hurl)
          cases h
          exact ⟨⟨hcollector, hdefaults.1⟩, hmetrics, rfl, rfl⟩
    · cases h
      exact ⟨hlogs, hmetrics, rfl, rfl⟩

/-- So is the exporter of the metrics. -/
theorem withMetricsOptions_ok (h : withMetricsOptions withOTLPGRPC ini options = .ok options')
    (hexport : options.exportMetrics = false) (hlogs : ValidLogs options)
    (hmetrics : ValidMetrics options) :
    ValidLogs options' ∧ ValidMetrics options' ∧
      options'.applicationName = options.applicationName := by
  have hdefaults : options.otelHTTPMetricsOptions = {} ∧ options.otelGRPCMetricsOptions = {} := by
    unfold ValidMetrics at hmetrics
    rw [hexport] at hmetrics
    exact hmetrics
  unfold withMetricsOptions at h
  dsimp only at h
  split at h
  · split at h
    · cases h
      exact ⟨hlogs, hmetrics, rfl⟩
    · next hurl =>
      have hcollector := collector_of_ne (Bool.eq_false_iff.mpr hurl)
      obtain ⟨times, htimes, h⟩ := bind_eq_ok.mp h
      obtain ⟨hinterval, htimeOut⟩ := getOTelMetricsIntervalAndTimeOut_ok htimes
      cases h
      exact ⟨hlogs, ⟨hcollector, collectorPath_withSlash hcollector _, hinterval, htimeOut,
        hdefaults.2⟩, rfl⟩
  · split at h
    · split at h
      · cases h
      · obtain ⟨times, htimes, h⟩ := bind_eq_ok.mp h
        obtain ⟨hinterval, htimeOut⟩ := getOTelMetricsIntervalAndTimeOut_ok htimes
        split at h
        · cases h
          exact ⟨hlogs, hmetrics, rfl⟩
        · next hurl =>
          have hcollector := collector_of_ne (Bool.eq_false_iff.mpr hurl)
          cases h
          exact ⟨hlogs, ⟨hcollector, hinterval, htimeOut, hdefaults.1⟩, rfl⟩
    · cases h
      exact ⟨hlogs, hmetrics, rfl⟩

/-- Every initialization file that exists and is accepted gives valid options. -/
theorem validProgram_of_parseIniFile {tree : Option IniFile}
    (h : parseIniFile withOTLPGRPC true tree = .ok options) : ValidProgram options := by
  unfold parseIniFile at h
  dsimp only at h
  rw [if_neg (by decide)] at h
  obtain ⟨ini, -, h⟩ := bind_eq_ok.mp h
  obtain ⟨withLogs, hlog, h⟩ := bind_eq_ok.mp h
  obtain ⟨withMetrics, hmetric, h⟩ := bind_eq_ok.mp h
  obtain ⟨settings, hsettings, h⟩ := bind_eq_ok.mp h
  obtain ⟨hlogs, hmetrics, hexport, hname⟩ := withLogOptions_ok hlog rfl ⟨rfl, rfl⟩ ⟨rfl, rfl⟩
  obtain ⟨hlogs, hmetrics, hname'⟩ := withMetricsOptions_ok hmetric hexport hlogs hmetrics
  cases h
  refine ⟨validSettings_of_getProxyOptions hsettings, ?_, hlogs, hmetrics⟩
  show withMetrics.applicationName ≠ []
  rw [hname', hname]
  dsimp only
  split
  · decide
  · next hne => simpa using hne

/-- Without a file the program goes on with its defaults, whose two servers have one address. -/
theorem not_validSettings_default : ¬ValidSettings {} := fun h ↦ h.apart rfl

/-- With the options that are read the constructor of the proxy does not throw. -/
theorem new_ok_of_parseIniFile {fileExists : Bool} {tree : Option IniFile}
    (h : parseIniFile withOTLPGRPC fileExists tree = .ok options) :
    ∃ state, ProxyState.new options.proxyOptions.toProxyOptions = .ok state := by
  cases fileExists with
  | false =>
    cases h
    exact ⟨_, rfl⟩
  | true => exact (validProgram_of_parseIniFile h).settings.new_ok

/-- The program is configured to run exactly when there is an initialization file: then the options
are valid, and the constructor of the proxy does not throw. -/
theorem parseIniFile_valid (withOTLPGRPC fileExists : Bool) (tree : Option IniFile)
    (h : parseIniFile withOTLPGRPC fileExists tree = .ok options) :
    (ValidProgram options ↔ fileExists = true) ∧
      ∃ state, ProxyState.new options.proxyOptions.toProxyOptions = .ok state := by
  refine ⟨?_, new_ok_of_parseIniFile h⟩
  cases fileExists with
  | false =>
    cases h
    exact ⟨fun hvalid ↦ absurd hvalid.settings not_validSettings_default, nofun⟩
  | true => exact ⟨fun _ ↦ rfl, fun _ ↦ validProgram_of_parseIniFile h⟩

end Program

section Example

/-- An initialization file with a port of the backend, a detector and a collector. -/
def sampleIniFile : IniFile where
  getOptional path := [(ascii "Backend.port", ascii "50002"),
    (ascii "Proxy.duplicateDetectorCircularBufferSize", ascii "60"),
    (ascii "OTelHTTPMetricsOptions", []),
    (ascii "OTelHTTPMetricsOptions.host", ascii "collector"),
    (ascii "OTelHTTPMetricsOptions.suffix", ascii "metrics")].lookup path
  toUInt16 text := if text = ascii "50002" then some 50002 else none
  toInt text := if text = ascii "60" then some 60 else none
  toInt64 _ := none
  fileExists _ := false
  readFile _ := none

/-- What is read from it. -/
def sampleOptions : ProgramOptions where
  proxyOptions := {
    mBackendOptions := { mGRPCOptions := { mPort := 50002 } }
    mDuplicatePacketDetectorOptions := { mCircularBufferSize := 60, mCircularBufferDuration := -1 }
    mHaveDuplicatePacketDetectorOptions := true }
  otelHTTPMetricsOptions := { url := ascii "collector:4218", suffix := ascii "/metrics" }
  exportMetrics := true

theorem parseIniFile_valid_sample : (ValidProgram sampleOptions ↔ true = true) ∧
    ∃ state, ProxyState.new sampleOptions.proxyOptions.toProxyOptions = .ok state :=
  parseIniFile_valid false true (some sampleIniFile) (by decide +kernel)

end Example
end ImportProxy.Proxy
