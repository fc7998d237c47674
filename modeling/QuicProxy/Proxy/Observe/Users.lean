import QuicProxy.Cache
import QuicProxy.Data.Text

namespace QuicProxy

/-! Users of the inbounds and what the observer keeps about them
(`src/proxy/observe.rs`, `src/proxy/inbound`). -/

structure AuthUser where
  username : String
  password : String
deriving DecidableEq

inductive InboundProtocol where
  | shadowquic
  | socks5
  | http
  | mix
  | trojan
  | anytls
  | vmess
  | tun
deriving DecidableEq

namespace InboundProtocol

def name : InboundProtocol → String
  | shadowquic => "shadowquic"
  | socks5 => "socks5"
  | http => "http"
  | mix => "mix"
  | trojan => "trojan"
  | anytls => "anytls"
  | vmess => "vmess"
  | tun => "tun"

def supportsUsers : InboundProtocol → Bool
  | shadowquic | trojan | anytls | vmess => true
  | socks5 | http | mix | tun => false

end InboundProtocol

/-- The hash functions and the UUID parser of the libraries. -/
structure Hashes where
  sha224 : Bytes → Bytes
  sha256 : Bytes → Bytes
  md5 : Bytes → Bytes
  parseUuid : String → Except String Bytes

def hexDigit (n : Nat) : UInt8 := castU8 (if n < 10 then 48 + n else 87 + n)

def hexEncode (bytes : Bytes) : Bytes :=
  bytes.flatMap fun byte => [hexDigit (byte.toNat / 16), hexDigit (byte.toNat % 16)]

def Hashes.genSunnyAuthHash (hashes : Hashes) (username password : String) : Bytes :=
  let hash := hashes.sha256 (asBytes (username ++ ":" ++ password))
  hash.take 64 ++ List.replicate (64 - hash.length) 0

/-- The `cmd_key` of `new_id`. -/
def Hashes.cmdKey (hashes : Hashes) (uuid : Bytes) : Bytes :=
  hashes.md5 (uuid ++ asBytes "c48619fe-8f02-49e0-b9e9-edf763e17e21")

def credentialHash (hashes : Hashes) (protocol : InboundProtocol) (username password : String) :
    Except String Bytes :=
  match protocol with
  | .trojan => .ok (hexEncode (hashes.sha224 (asBytes password)))
  | .anytls => .ok (hashes.sha256 (asBytes password))
  | .shadowquic => .ok (hashes.genSunnyAuthHash username password)
  | .vmess =>
      match hashes.parseUuid username with
      | .ok uuid => .ok (hashes.cmdKey uuid)
      | .error error => .error ("invalid vmess uuid '" ++ username ++ "': " ++ error)
  | other => .error ("protocol '" ++ other.name ++ "' does not support user management")

def knownUuid : Bytes :=
  [184, 49, 56, 29, 99, 36, 77, 83, 173, 79, 140, 218, 72, 179, 8, 17]

/-- The hash functions at the passwords `a` and `b` and at one UUID, and the
UUID parser at that UUID and at names like `alice` and `bob`. -/
def knownHashes : Hashes where
  sha224 input :=
    if input = [97] then
      [171, 211, 117, 52, 199, 217, 162, 239, 185, 70, 93, 233, 49, 205, 112, 85, 255, 219,
       136, 121, 86, 58, 233, 128, 120, 214, 214, 213]
    else if input = [98] then
      [198, 129, 225, 139, 129, 237, 175, 43, 102, 221, 34, 55, 103, 52, 219, 165, 153, 46, 54,
       43, 195, 249, 26, 178, 37, 133, 76, 23]
    else []
  sha256 input :=
    if input = [97] then
      [202, 151, 129, 18, 202, 27, 189, 202, 250, 194, 49, 179, 154, 35, 220, 77, 167, 134,
       239, 248, 20, 124, 78, 114, 185, 128, 119, 133, 175, 238, 72, 187]
    else if input = [98] then
      [62, 35, 232, 22, 0, 57, 89, 74, 51, 137, 79, 101, 100, 225, 177, 52, 139, 189, 122, 0,
       136, 212, 44, 74, 203, 115, 238, 174, 213, 156, 0, 157]
    else []
  md5 input :=
    if input = knownUuid ++ asBytes "c48619fe-8f02-49e0-b9e9-edf763e17e21" then
      [181, 13, 145, 106, 192, 206, 192, 103, 152, 26, 248, 229, 243, 138, 117, 143]
    else []
  parseUuid name :=
    if name = "b831381d-6324-4d53-ad4f-8cda48b30811" then .ok knownUuid
    else .error "invalid character"

/-! The user list of one inbound. -/

/-- The list that `add_user` computes: the first user of that name gets the
password, or the user is put at the end. -/
def withUser (user : AuthUser) : List AuthUser → List AuthUser
  | [] => [user]
  | existing :: users =>
      if existing.username = user.username then
        { existing with password := user.password } :: users
      else existing :: withUser user users

/-- The list that `remove_user` computes. -/
def withoutUser (username : String) (users : List AuthUser) : List AuthUser :=
  users.filter (·.username ≠ username)

def passwordOf (username : String) (users : List AuthUser) : Option String :=
  (users.find? (·.username = username)).map (·.password)

@[simp] theorem passwordOf_withUser (user : AuthUser) (users : List AuthUser) :
    passwordOf user.username (withUser user users) = some user.password := by
  induction users with
  | nil => simp [withUser, passwordOf]
  | cons existing users ih =>
      simp only [withUser]
      split
      · rename_i same
        simp [passwordOf, same]
      · rename_i other
        simpa [passwordOf, other] using ih

theorem passwordOf_withUser_ne {username : String} {user : AuthUser}
    (other : user.username ≠ username) (users : List AuthUser) :
    passwordOf username (withUser user users) = passwordOf username users := by
  induction users with
  | nil => simp [withUser, passwordOf, other]
  | cons existing users ih =>
      simp only [withUser]
      split
      · rename_i same
        have differs : existing.username ≠ username := same ▸ other
        simp [passwordOf, differs]
      · by_cases hit : existing.username = username
        · simp [passwordOf, hit]
        · simpa [passwordOf, hit] using ih

@[simp] theorem passwordOf_withoutUser (username : String) (users : List AuthUser) :
    passwordOf username (withoutUser username users) = none := by
  simp [passwordOf, withoutUser, List.find?_eq_none]

theorem passwordOf_withoutUser_ne {username removed : String} (other : removed ≠ username)
    (users : List AuthUser) :
    passwordOf username (withoutUser removed users) = passwordOf username users := by
  induction users with
  | nil => rfl
  | cons existing users ih =>
      by_cases hit : existing.username = username
      · simp [passwordOf, withoutUser, hit, Ne.symm other]
      · simp only [passwordOf, withoutUser, List.filter_cons] at ih ⊢
        split <;> simpa [hit] using ih

theorem withUser_eq_iff (user : AuthUser) (users : List AuthUser) :
    withUser user users = users ↔ passwordOf user.username users = some user.password := by
  constructor
  · intro same
    rw [← passwordOf_withUser user users, same]
  · intro present
    induction users with
    | nil => simp [passwordOf] at present
    | cons existing users ih =>
        simp only [withUser]
        by_cases same : existing.username = user.username
        · simp only [passwordOf, same, decide_true, List.find?_cons_of_pos, Option.map_some,
            Option.some.injEq] at present
          rw [if_pos same, ← present]
        · rw [if_neg same, ih]
          simpa [passwordOf, same] using present

theorem mem_withUser {user found : AuthUser} {users : List AuthUser}
    (member : found ∈ withUser user users) :
    found ∈ users ∨ found.username = user.username := by
  induction users with
  | nil =>
      rw [List.mem_singleton.mp member]
      exact Or.inr rfl
  | cons existing users ih =>
      simp only [withUser] at member
      split at member
      · rename_i same
        rcases List.mem_cons.mp member with rfl | later
        · exact Or.inr same
        · exact Or.inl (List.mem_cons_of_mem _ later)
      · rcases List.mem_cons.mp member with rfl | later
        · exact Or.inl (List.mem_cons_self ..)
        · exact (ih later).imp_left (List.mem_cons_of_mem _)

end QuicProxy
