import Cios.Authn.Handler

/-!
# Login — the algorithms of id tokens

Keys, algorithms, digests and the halves of a signature are read by tables of their own
(`pkg/authn/oidc.go`).  They fit each other, but for the digest: an `ES384` or `ES512` signature is
made over SHA-384 or SHA-512 and checked over SHA-256.  So such a token is accepted only where the
primitive takes the wrong digest too (`algorithms_work_iff`).
-/

namespace Cios.Authn
open Text Effect List Option

/-- The key that a published one is: its numbers are big-endian, in base64url. -/
def Jwk.Declares (k : Jwk) : PublicKey → Prop
  | .rsa n e => k.kty = "RSA" ∧ e ≠ 0 ∧ (Base64.decode k.n).map bigInt = some n ∧
      (Base64.decode k.e).map bigInt = some e.toNat
  | .ec curve x y => k.kty = "EC" ∧ parseCurve k.crv = some curve ∧
      (Base64.decode k.x).map bigInt = some x ∧ (Base64.decode k.y).map bigInt = some y

/-- The algorithm is one for keys of this kind. -/
def Fits (alg : Bytes) (pub : PublicKey) : Prop :=
  match parseAlg alg, pub with
  | some (.rs _), .rsa _ _ => True
  | some (.es _), .ec _ _ _ => True
  | _, _ => False

/-- The digest is the algorithm's own, or the primitive does not mind. -/
def Digested (c : Crypto) (alg : Bytes) (pub : PublicKey) (input sig : Bytes) : Prop :=
  match parseAlg alg, pub with
  | some (.es h), .ec curve x y =>
    h = .sha256 ∨ c.verifyES h curve x y (c.hashSum .sha256 input) sig = true
  | _, _ => True

/-- Shifting a byte in is reading one more digit, up to the low 64 bits. -/
theorem toNat_shiftIn (e : UInt64) (c : UInt8) :
    (e <<< 8 ||| c.toUInt64).toNat = (e.toNat * 256 + c.toNat) % 2 ^ 64 := by
  have hc : c.toNat < 2 ^ 8 := c.toNat_lt
  have hor : e.toNat <<< 8 % 2 ^ 64 = (e.toNat % 2 ^ 56) <<< 8 := by
    omega
  show e.toNat <<< 8 % 2 ^ 64 ||| c.toNat = _
  rw [hor, ← Nat.shiftLeft_add_eq_or_of_lt hc, Nat.shiftLeft_eq]
  omega

theorem toNat_exponent (b : Bytes) :
    (b.foldl (fun (e : UInt64) c => e <<< 8 ||| c.toUInt64) 0).toNat = bigInt b % 2 ^ 64 := by
  induction b using List.reverseRecOn with
  | nil => rfl
  | append_singleton b c ih =>
    rw [bigInt, foldl_append, foldl_append, foldl_cons, foldl_nil, foldl_cons, foldl_nil,
      toNat_shiftIn, ih, bigInt]
    omega

/-- A published key is read as the one it declares. -/
theorem publicKey_of_declares {k : Jwk} {pub : PublicKey} (h : k.Declares pub) :
    k.publicKey = some pub := by
  cases pub with
  | rsa n e =>
    obtain ⟨hkty, he, hn, heb⟩ := h
    obtain ⟨nb, hnb, rfl⟩ := map_eq_some_iff.mp hn
    obtain ⟨eb, heb, hval⟩ := map_eq_some_iff.mp heb
    have hexp : eb.foldl (fun (e : UInt64) c => e <<< 8 ||| c.toUInt64) 0 = e := by
      rw [← UInt64.toNat_inj, toNat_exponent, hval, Nat.mod_eq_of_lt e.toNat_lt]
    simp [Jwk.publicKey, hkty, hnb, heb, hexp, he]
  | ec curve x y =>
    obtain ⟨hkty, hcurve, hx, hy⟩ := h
    obtain ⟨xb, hxb, rfl⟩ := map_eq_some_iff.mp hx
    obtain ⟨yb, hyb, rfl⟩ := map_eq_some_iff.mp hy
    simp [Jwk.publicKey, hkty, show lit "EC" ≠ lit "RSA" by decide, hcurve, hxb, hyb]

section Verify

variable {c : Crypto} {alg input sig : Bytes} {pub : PublicKey}

theorem verifySignature_iff (h : JoseValid c alg pub input sig) :
    verifySignature c alg pub input sig = true ↔ Digested c alg pub input sig := by
  unfold JoseValid at h
  split at h
  · next halg => simp [verifySignature, Digested, halg, h]
  · next hash curve x y halg =>
      obtain ⟨-, hlen, hown⟩ := h
      simp only [verifySignature, Digested, halg, hlen]
      refine ⟨.inr, ?_⟩
      rintro (rfl | hver)
      · exact hown
      · exact hver
  · cases h

theorem fits_of_verifySignature (h : verifySignature c alg pub input sig = true) :
    Fits alg pub := by
  unfold verifySignature at h
  split at h
  iterate 2 next halg => simp [Fits, halg]
  · cases h

end Verify

/-- **Signature algorithms.**  A token with valid claims that is signed as its algorithm is defined,
under the published key, is accepted exactly when the digest is its own; one whose algorithm does
not fit the key is rejected. -/
theorem algorithms_work_iff {V : Type} {lib : Lib V} {v : OidcVerifier} {raw nonce : Bytes}
    {evs : List (Event AuthnOp AuthnOp.Ret)} {keys : List Jwk} {k : Jwk} {pub : PublicKey}
    {t : IDToken V} {now : Int} (hread : readIDToken lib raw = some t)
    (hkeys : (maybeRefreshJWKS lib v).Fed evs (.done (some keys)))
    (hkid : keys.find? (·.kid = t.header.kid) = some k) (hpub : k.Declares pub)
    (hclaims : verifyStandardClaims lib t.claims v.clientID nonce (Sts.unixSeconds now) = true) :
    (JoseValid lib.crypto t.header.alg pub t.input t.sig →
        ((verifyIDToken lib v raw nonce).Fed (evs ++ [⟨.now, now⟩]) (.done (some t.claims)) ↔
          Digested lib.crypto t.header.alg pub t.input t.sig) ∧
        (¬ Digested lib.crypto t.header.alg pub t.input t.sig →
          (verifyIDToken lib v raw nonce).Fed evs (.done none))) ∧
      (¬ Fits t.header.alg pub → (verifyIDToken lib v raw nonce).Fed evs (.done none)) := by
  have hlookup : lookupJWK keys t.header.kid = some pub := by
    rw [lookupJWK, hkid]
    exact publicKey_of_declares hpub
  have hgood (h : verifySignature lib.crypto t.header.alg pub t.input t.sig = true) :
      (verifyIDToken lib v raw nonce).Fed (evs ++ [⟨.now, now⟩]) (.done (some t.claims)) := by
    rw [verifyIDToken, hread]
    refine hkeys.attempt_some ?_
    rw [hlookup]
    simp [h, hclaims]
  have hbad (h : ¬ verifySignature lib.crypto t.header.alg pub t.input t.sig = true) :
      (verifyIDToken lib v raw nonce).Fed evs (.done none) := by
    rw [verifyIDToken, hread, ← append_nil evs]
    refine hkeys.attempt_some ?_
    rw [hlookup]
    simp [h]
  refine ⟨fun hjose => ?_, fun hfit => hbad fun h => hfit (fits_of_verifySignature h)⟩
  rw [← verifySignature_iff hjose]
  refine ⟨⟨fun hfed => ?_, hgood⟩, hbad⟩
  by_contra hno
  cases (hbad hno).stopped hfed

def loadedKeys (keys : List Jwk) : List (Event AuthnOp AuthnOp.Ret) :=
  [⟨.loadJWKS, some (keys, 0)⟩, ⟨.now, (0 : Int)⟩, ⟨.loadJWKS, some (keys, 0)⟩]

theorem algorithms_work_iff_rsa : (verifyIDToken demoLib demoVerifier rsaToken "n").Fed
    (loadedKeys rsaKeys ++ [⟨.now, (0 : Int)⟩]) (.done (some demoClaims)) := by
  have hwork := @algorithms_work_iff Int demoLib demoVerifier rsaToken "n" (loadedKeys rsaKeys)
    rsaKeys ⟨"RSA", "k", "AQ", "AQ", [], [], []⟩ (.rsa 1 1) _ 0
      rfl (.cons (.cons (.cons (.nil _)))) rfl
    ⟨rfl, by decide, by decide, by decide⟩ (by decide)
  exact (hwork.1 rfl).1.mpr trivial

/-- Primitives that take an elliptic signature over SHA-384 only. -/
def es384Lib : Lib Int :=
  { demoLib with crypto := { demoCrypto with ecdsaVerify := fun _ _ _ digest _ _ => digest = [2] } }

/-- A token that is signed as `ES384` is defined, and rejected. -/
theorem es384_rejected : ∃ t, readIDToken es384Lib ecToken = some t ∧
    JoseValid es384Lib.crypto t.header.alg (.ec .p384 1 1) t.input t.sig ∧
    ecKeys.map Jwk.publicKey = [some (.ec .p384 1 1)] ∧
    verifyStandardClaims es384Lib t.claims "c" "n" 0 = true ∧
    (verifyIDToken es384Lib demoVerifier ecToken "n").Fed (loadedKeys ecKeys) (.done none) :=
  ⟨_, rfl, ⟨rfl, by decide, rfl⟩, by decide, by decide, .cons (.cons (.cons (.nil _)))⟩

end Cios.Authn
