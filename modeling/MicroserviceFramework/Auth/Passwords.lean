import MicroserviceFramework.Auth.CAuthClient
import MicroserviceFramework.Auth.UserDirectory
import MicroserviceFramework.Library.Base64

/-!
# Passwords on their way to the service

A client never sends a password, but the base64 text of its MD5 digest, in a request to add a user
as in one to log in. The text has no character that could end its literal, so what a client asks
for is what MySQL is asked for if its names can stand in the texts.

The digest and the base64 filter are those of OpenSSL, which is not part of the program.
-/

namespace MicroserviceFramework.Auth

open Library Library.Wire Library.Sql Platform
open Config (Collation)

structure OpenSsl where
  MD5 : List UInt8 → List UInt8
  /-- What is behind a base64 filter without newlines when the bytes have been written to it. -/
  written : List UInt8 → List Char
  /-- What is read through such a filter from a text. -/
  read : List Char → List UInt8
  length_MD5 : ∀ data, (MD5 data).length = 16
  written_eq : ∀ data, written data = Base64.encode data
  read_eq : ∀ text data, Base64.decode text = some data → read text = data

namespace OpenSsl

/-! ## `ctools.cpp` -/

/-- What is copied to `outBase64`, of the length that is returned; `available` says whether the
filter can be allocated. -/
def base64Encode (ssl : OpenSsl) (available : Bool) (data : List UInt8) : List Char :=
  if data = [] ∨ !available then [] else ssl.written data

def base64Decode (ssl : OpenSsl) (available : Bool) (text : List Char) : List UInt8 :=
  if text = [] ∨ !available then [] else ssl.read text

def CMD5 (ssl : OpenSsl) (data : List UInt8) : List UInt8 := ssl.MD5 data

/-- The last of the 25 characters is set to NUL. -/
def CMD5Base64 (ssl : OpenSsl) (available : Bool) (data : List UInt8) : String :=
  cstr (.ofList ((ssl.base64Encode available (ssl.CMD5 data)).take 24))

variable (ssl : OpenSsl)

theorem base64Decode_base64Encode (data : List UInt8) :
    ssl.base64Decode true (ssl.base64Encode true data) = data := by
  by_cases nonempty : data = []
  · simp [base64Encode, base64Decode, nonempty]
  · have text : ssl.base64Encode true data = Base64.encode data := by
      simp [base64Encode, nonempty, ssl.written_eq]
    have some_text : Base64.encode data ≠ [] := fun none => nonempty (Base64.encode_inj.mp none)
    rw [text, base64Decode, if_neg (by simp [some_text])]
    exact ssl.read_eq _ _ (Base64.decode_encode data)

/-- Characters of base64 need no escape. -/
theorem plain_of_base64 {s : List Char} (base64 : ∀ c ∈ s, c ∈ Base64.alphabet ∨ c = Base64.pad) :
    Plain (.ofList s) := by
  have others : ∀ c ∈ [Char.ofNat 0, quote, backslash], ¬(c ∈ Base64.alphabet ∨ c = Base64.pad) := by
    rw [List.forall_mem_cons, List.forall_mem_cons, List.forall_mem_singleton]
    exact ⟨by decide, by decide, by decide⟩
  have free {c : Char} (other : c ∈ [Char.ofNat 0, quote, backslash]) :
      c ∉ (String.ofList s).toList := by
    rw [String.toList_ofList]
    exact fun mem => others c other (base64 c mem)
  exact ⟨free (by simp), .of_not_mem (free (by simp)) (free (by simp))⟩

theorem base64Encode_CMD5 (available : Bool) (data : List UInt8) :
    ssl.base64Encode available (ssl.CMD5 data) =
      if available then Base64.encode (ssl.MD5 data) else [] := by
  have nonempty : ssl.MD5 data ≠ [] := fun none => by
    have length := ssl.length_MD5 data
    rw [none] at length
    cases length
  cases available <;> simp [base64Encode, CMD5, nonempty, ssl.written_eq]

/-- The text of a digest is all of its base64. -/
theorem CMD5Base64_eq (available : Bool) (data : List UInt8) :
    ssl.CMD5Base64 available data =
      .ofList (if available then Base64.encode (ssl.MD5 data) else []) := by
  have length : (Base64.encode (ssl.MD5 data)).length = 24 := by
    rw [Base64.length_encode, ssl.length_MD5]
  have whole : (if available then Base64.encode (ssl.MD5 data) else []).take 24 =
      if available then Base64.encode (ssl.MD5 data) else [] := by
    apply List.take_of_length_le
    split
    · omega
    · exact Nat.zero_le _
  have plain : Plain (.ofList (if available then Base64.encode (ssl.MD5 data) else [])) := by
    refine plain_of_base64 fun c mem => ?_
    split at mem
    · exact Base64.mem_encode mem
    · cases mem
  rw [CMD5Base64, base64Encode_CMD5, whole, cstr_eq_self plain.1]

theorem plain_CMD5Base64 (available : Bool) (data : List UInt8) :
    Plain (ssl.CMD5Base64 available data) := by
  rw [CMD5Base64_eq]
  refine plain_of_base64 fun c mem => ?_
  split at mem
  · exact Base64.mem_encode mem
  · cases mem

/-- Two texts are the same if the digests are, or there was no memory for either. -/
theorem CMD5Base64_inj {available available' : Bool} {data data' : List UInt8} :
    ssl.CMD5Base64 available data = ssl.CMD5Base64 available' data' ↔
      available = available' ∧ (available → ssl.MD5 data = ssl.MD5 data') := by
  have some_text (data : List UInt8) : Base64.encode (ssl.MD5 data) ≠ [] := by
    intro none
    have length := Base64.length_encode (ssl.MD5 data)
    rw [none, ssl.length_MD5] at length
    cases length
  rw [CMD5Base64_eq, CMD5Base64_eq, String.ofList_inj]
  cases available <;> cases available' <;> simp [some_text, Base64.encode_inj, (some_text _).symm]

end OpenSsl

/-! ## Requests of a client -/

namespace CAuthClient

variable (ssl : OpenSsl) (available : Bool)

/-- What is sent for a password. -/
def sentFor (password : String) : String := ssl.CMD5Base64 available (Kind.utf8 password)

/-- The message of `addUserReq`. -/
def addUserReq (user : CAddUserReq) : CAddUserReq :=
  { user with password := sentFor ssl available user.password }

/-- The message of `LoginReq`. -/
def loginMsg (username password : String) : CLoginReq :=
  loginReq (sentFor ssl available) username password

end CAuthClient

section

variable (ssl : OpenSsl) {collation : Collation} {available available' : Bool}
  {before between : List UserRequest} {user : CAddUserReq} {executed : Bool} {head : CMsgHead}
  {o : Outcomes} {username password : String}

theorem bytes_ofBytes (data : List UInt8) : (CMsg.ofBytes data).bytes = data := by
  simp [CMsg.ofBytes, CMsg.bytes]

/-- A user that a client has added logs in from a client exactly with a password for which a text is
sent that MySQL does not tell apart, whatever other requests come before and in between. Only the
names have to be plain. The texts themselves are the same exactly if the digests are, or neither
client had the memory to make one. -/
theorem client_account [Protobuf]
    (others : (∀ r ∈ before, r.Plain) ∧ ∀ r ∈ between, r.Plain)
    (names : Plain user.username ∧ Plain user.rolename ∧ Plain username)
    (fits : (Message.serialize (CAuthClient.addUserReq ssl available user)).length < 2 ^ 31)
    (fits' : (Message.serialize (CAuthClient.loginMsg ssl available' username password)).length <
      2 ^ 31)
    (same : collation.same user.username username) :
    let adding := UserRequest.addUser
      (Message.serialize (CAuthClient.addUserReq ssl available user)) executed
    let login := UserRequest.login head
      (CMsg.ofBytes (Message.serialize (CAuthClient.loginMsg ssl available' username password))) o
    let text := CAuthClient.sentFor ssl available user.password
    let text' := CAuthClient.sentFor ssl available' password
    (((served collation before).2.serve collation adding).1 = [.added] →
      ((served collation (before ++ adding :: between)).2.serve collation login).1 =
        [if Directory.Admits (CAuthClient.loginMsg ssl available' username password) o ∧
            collation.same text text' then
          .welcome user.rolename
        else .refused]) ∧
    (text = text' ↔ available = available' ∧
      (available → ssl.MD5 (Kind.utf8 user.password) = ssl.MD5 (Kind.utf8 password))) := by
  intro adding login text text'
  refine ⟨fun added => ?_, ssl.CMD5Base64_inj⟩
  have read := Message.parse_serialize fits
  have parsed : Message.parse (CMsg.ofBytes (Message.serialize
      (CAuthClient.loginMsg ssl available' username password))).bytes =
      (true, CAuthClient.loginMsg ssl available' username password) := by
    rw [bytes_ofBytes, Message.parse_serialize fits']
  have plain : ∀ r ∈ adding :: between, r.Plain := by
    intro r mem
    rcases List.mem_cons.mp mem with rfl | later
    · dsimp only [adding, UserRequest.Plain]
      rw [read]
      dsimp only [CAuthClient.addUserReq]
      exact ⟨names.1, ssl.plain_CMD5Base64 .., names.2.1⟩
    · exact others.2 r later
  have known : collation.same
      (Message.parse (M := CAddUserReq)
        (Message.serialize (CAuthClient.addUserReq ssl available user))).2.username
      (CAuthClient.loginMsg ssl available' username password).username := by
    rw [read]
    dsimp only [CAuthClient.addUserReq, CAuthClient.loginMsg, CAuthClient.loginReq]
    exact same
  have start : Refines collation (served collation before).2 _ := (Refines.empty.run others.1).2
  rw [served_split, start.registered plain added parsed names.2.2 (ssl.plain_CMD5Base64 ..) known,
    read]
  rfl

end

/-- The digest of `x`, and that of `y`. -/
def digests (data : List UInt8) : List UInt8 :=
  if data = [0x78] then
    [0x9d, 0xd4, 0xe4, 0x61, 0x26, 0x8c, 0x80, 0x34, 0xf5, 0xc8, 0x56, 0x4e, 0x15, 0x5c, 0x67, 0xa6]
  else
    [0x41, 0x52, 0x90, 0x76, 0x95, 0x94, 0x46, 0x0e, 0x2e, 0x48, 0x59, 0x22, 0x90, 0x4f, 0x34, 0x5d]

def twoDigests : OpenSsl where
  MD5 := digests
  written := Base64.encode
  read text := (Base64.decode text).getD []
  length_MD5 data := by unfold digests; split <;> rfl
  written_eq _ := rfl
  read_eq text data decoded := by rw [decoded, Option.getD_some]

def ann : CAddUserReq := { username := "ann", password := "x", rolename := "admin" }

open Library.Wire.Reader

/-- The answer to a login after `ann` was added. -/
def annLogin (password : String) : List UserReply :=
  ((served .exact ([] ++ .addUser (Message.serialize (CAuthClient.addUserReq twoDigests true ann))
    true :: [])).2.serve .exact (.login {} (CMsg.ofBytes (Message.serialize
      (CAuthClient.loginMsg twoDigests true "ann" password))) {})).1

theorem client_account_ann :
    (CAuthClient.addUserReq twoDigests true ann).password = "ndTkYSaMgDT1yFZOFVxnpg==" ∧
    annLogin "x" = [.welcome "admin"] ∧ annLogin "y" = [.refused] := by
  have names : Plain ann.username ∧ Plain ann.rolename ∧ Plain "ann" := by decide
  have others : (∀ r ∈ ([] : List UserRequest), r.Plain) ∧
      ∀ r ∈ ([] : List UserRequest), r.Plain := by simp
  have added : ((served .exact []).2.serve .exact (.addUser
      (Message.serialize (CAuthClient.addUserReq twoDigests true ann)) true)).1 = [.added] := by
    decide +kernel
  have fits : (Message.serialize (CAuthClient.addUserReq twoDigests true ann)).length < 2 ^ 31 := by
    decide +kernel
  have same : Collation.exact.same ann.username "ann" := by decide
  have right : (Message.serialize (CAuthClient.loginMsg twoDigests true "ann" "x")).length <
      2 ^ 31 := by decide +kernel
  have wrong : (Message.serialize (CAuthClient.loginMsg twoDigests true "ann" "y")).length <
      2 ^ 31 := by decide +kernel
  refine ⟨by decide +kernel, ?_, ?_⟩
  · rw [annLogin, (client_account twoDigests others names fits right same).1 added]
    decide +kernel
  · rw [annLogin, (client_account twoDigests others names fits wrong same).1 added]
    decide +kernel

end MicroserviceFramework.Auth
