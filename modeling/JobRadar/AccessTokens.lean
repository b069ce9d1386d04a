import JobRadar.CurrentUser

namespace JobRadar

open Database Python

/-- The whole seconds of an instant, to which `jwt.encode` cuts it. -/
def wholeSeconds (t : Time) : Nat := t / 1000000

/-- `str` of a uuid, which `uuid.UUID` reads. -/
structure JwtLibrary extends TokenLibrary where
  uuidText : Uuid → Text
  uuidText_length : ∀ id, (uuidText id).length = 36
  uuid_uuidText : ∀ id, uuid (uuidText id) = some id

namespace AccessToken

variable (a : AccessToken)

/-- The claims that `create_access_token` encodes. -/
def claims (uuidText : Uuid → Text) : Dict :=
  [(text "sub", .str (uuidText a.sub)),
    (text "email", match a.email with
      | none => .null
      | some email => .str (text email)),
    (text "roles", .arr (a.roles.map fun role => .str (text role))),
    (text "type", .str (text "access")),
    (text "jti", .str (uuidText a.jti)),
    (text "iat", .int (wholeSeconds a.iat)),
    (text "exp", .int (wholeSeconds a.exp)),
    (text "iss", .str (text a.iss))] ++
  match a.sid with
  | none => []
  | some s => [(text "sid", .str (uuidText s))]

/-- The token is of the issuer, and the instant is not before it was issued and before it expires,
by whole seconds. -/
def LiveAt (issuer : String) (now : Time) : Prop :=
  a.iss = issuer ∧ wholeSeconds a.iat * 1000000 ≤ now ∧ now < wholeSeconds a.exp * 1000000

instance (issuer : String) (now : Time) : Decidable (a.LiveAt issuer now) :=
  inferInstanceAs (Decidable (_ ∧ _ ∧ _))

end AccessToken

/-- The text is what `jwt.encode` makes of the claims: with the key it was signed with, `jwt.decode`
gives them back as long as the token is live. -/
def JwtLibrary.Encodes (lib : JwtLibrary) (token : Text) (a : AccessToken) : Prop :=
  ∀ issuer now, lib.decode token a.secret issuer now =
    if a.LiveAt issuer now then some (a.claims lib.uuidText) else none

section Claims

variable {lib : JwtLibrary} {a : AccessToken} {token : Text} {cfg : Settings} {now : Time}

theorem uuidOf_uuidText (id : Uuid) :
    lib.toTokenLibrary.uuidOf (.str (lib.uuidText id)) = .ok id := by
  simp only [TokenLibrary.uuidOf, lib.uuid_uuidText]

variable (lib) in
theorem uuidText_truthy (id : Uuid) : (Json.str (lib.uuidText id)).truthy = true := by
  have hlength := lib.uuidText_length id
  cases h : lib.uuidText id with
  | nil => simp [h] at hlength
  | cons c t => rfl

theorem claim_sub : claim (a.claims lib.uuidText) "sub" = .str (lib.uuidText a.sub) := rfl

theorem claim_type : claim (a.claims lib.uuidText) "type" = .str (text "access") := rfl

theorem claim_sid : claim (a.claims lib.uuidText) "sid" = match a.sid with
    | none => .null
    | some s => .str (lib.uuidText s) := by
  unfold AccessToken.claims
  cases a.sid <;> rfl

theorem sessionClaim_claims :
    sessionClaim lib.toTokenLibrary (a.claims lib.uuidText) = .ok a.sid := by
  unfold sessionClaim
  rw [claim_sid]
  cases a.sid with
  | none => rfl
  | some s =>
    have htruthy := uuidText_truthy lib s
    simp only [htruthy, if_true, uuidOf_uuidText, Except.map]

theorem decodeAccessToken_encoded (hencodes : lib.Encodes token a)
    (hsecret : cfg.jwtSecretKey = a.secret) :
    decodeAccessToken lib.toTokenLibrary cfg now token =
      if a.LiveAt cfg.jwtIssuer now then .ok (a.claims lib.uuidText)
      else .error .invalidAccessToken := by
  unfold decodeAccessToken
  rw [hsecret, hencodes]
  by_cases hlive : a.LiveAt cfg.jwtIssuer now
  · have haccepted : (claim (a.claims lib.uuidText) "type").asStr = some (text "access") ∧
        (claim (a.claims lib.uuidText) "sub").truthy := ⟨rfl, uuidText_truthy lib a.sub⟩
    rw [if_pos hlive, if_pos hlive]
    exact if_pos haccepted
  · rw [if_neg hlive, if_neg hlive]

theorem tokenIdentity_encoded (hencodes : lib.Encodes token a)
    (hsecret : cfg.jwtSecretKey = a.secret) :
    tokenIdentity lib.toTokenLibrary cfg now token =
      if a.LiveAt cfg.jwtIssuer now then .ok (a.sub, a.sid) else .error .invalidAccessToken := by
  unfold tokenIdentity
  rw [decodeAccessToken_encoded hencodes hsecret]
  by_cases hlive : a.LiveAt cfg.jwtIssuer now
  · rw [if_pos hlive, if_pos hlive]
    simp only [claim_sub, uuidOf_uuidText, sessionClaim_claims, Except.map]
  · rw [if_neg hlive, if_neg hlive]

end Claims

end JobRadar
