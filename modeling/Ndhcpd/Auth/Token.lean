import Ndhcpd.Wire.Bytes

/-!
# API tokens

A token is 32 random bytes in base64; what the database keeps of it is an Argon2 hash with a
random salt. It comes back in the value of a header. The random bytes and the salt are arguments
here, and what the daemon uses of other crates is a parameter, `TokenCrates`. `TokenCrates.Ideal` is
the assumption on Argon2 under which tokens identify who presents them, and `TokenCrates.Documented`
what the other crates promise: a token is visible ASCII, and visible ASCII can be read from a header
as it was sent.
-/

namespace Ndhcpd

/-- Visible ASCII, and the tabulator. -/
def isVisibleAscii (c : Char) : Bool := (32 ≤ c.toNat && c.toNat < 127) || c == '\t'

/-- What the daemon uses of other crates to handle tokens: of Argon2, hashing a password with a
salt, reading a hash string, and testing a password against a hash; of `base64`, the standard
encoding; and of `http`, the text of a header value. -/
structure TokenCrates where
  hashPassword (password salt : String) : Except String String
  parse (hash : String) : Except String Unit
  verifyPassword (password hash : String) : Bool
  encode (bytes : List UInt8) : String
  toStr (value : List UInt8) : Option String

/-- The encoding consists of letters, digits and three other characters; and a header value can be
read as text if it is visible ASCII, and then it is read as it was sent. -/
structure TokenCrates.Documented (crates : TokenCrates) : Prop where
  encode : ∀ bytes, (crates.encode bytes).toList.all isVisibleAscii = true
  toStr_utf8Bytes : ∀ s : String, s.toList.all isVisibleAscii = true →
    crates.toStr (utf8Bytes s) = some s
  utf8Bytes_toStr : ∀ value s, crates.toStr value = some s → utf8Bytes s = value

namespace Token

/-- The number of random bytes of a token. -/
def tokenLength : ℕ := 32

/-- The random bytes that a call of `generate` draws. -/
abbrev RandomBytes : Type := { bytes : List UInt8 // bytes.length = tokenLength }

variable (crates : TokenCrates)

/-- A new token, from the random bytes drawn. -/
def generate (rng : RandomBytes) : String := crates.encode rng.val

/-- Hash a token; the result is the hash with the salt that was drawn. -/
def hash (salt token : String) : Except String (String × String) :=
  match crates.hashPassword token salt with
  | .ok passwordHash => .ok (passwordHash, salt)
  | .error e => .error ("Failed to hash token: " ++ e)

/-- Verify a token against a stored hash. -/
def verify (token hash : String) : Except String Bool :=
  match crates.parse hash with
  | .ok _ => .ok (crates.verifyPassword token hash)
  | .error e => .error ("Failed to parse hash: " ++ e)

end Token

/-- Argon2 is ideal: a token verifies against the hash of a token exactly if they are the
same. -/
def TokenCrates.Ideal (crates : TokenCrates) : Prop :=
  ∀ token token' salt passwordHash, crates.hashPassword token' salt = .ok passwordHash →
    (Token.verify crates token passwordHash = .ok true ↔ token = token')

/-- A hash that was made by Argon2 can be read, so that verifying against it never fails. -/
theorem TokenCrates.Ideal.verify_eq {crates : TokenCrates} (h : crates.Ideal)
    {token token' salt passwordHash : String}
    (hhash : crates.hashPassword token' salt = .ok passwordHash) :
    Token.verify crates token passwordHash = .ok (decide (token = token')) := by
  have hself : Token.verify crates token' passwordHash = .ok true :=
    (h token' token' salt passwordHash hhash).mpr rfl
  have hiff := h token token' salt passwordHash hhash
  cases hparse : crates.parse passwordHash with
  | error e => simp [Token.verify, hparse] at hself
  | ok u =>
    simp only [Token.verify, hparse, Except.ok.injEq] at hiff ⊢
    exact Bool.eq_iff_iff.mpr (hiff.trans (by simp))

end Ndhcpd
