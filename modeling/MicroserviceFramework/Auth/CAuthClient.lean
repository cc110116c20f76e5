import MicroserviceFramework.Auth.Login
import Mathlib.Logic.Function.Basic

/-!
# A client that logs in

`CAuthClient` keeps the last answer for each username. `LoginReq` deletes what is there before it
sends its request, and `getLoginInfo` looks for an answer every 10 ms until there is one or the time
is up. What it finds can change from one look to the next: `LoginRes` runs in another thread.

The password is sent as the text that `CMD5Base64` makes of it.
-/

namespace MicroserviceFramework.Auth

open Library Library.Wire Platform

structure CAuthClient where
  loginMap : String → Option CLoginRes := fun _ => none

namespace CAuthClient

variable (CMD5Base64 : String → String)

/-- The message of a request. -/
def loginReq (username password : String) : CLoginReq :=
  { username := username, password := CMD5Base64 password }

def LoginReq (username password : String) (c : CAuthClient) : CLoginReq × CAuthClient :=
  (loginReq CMD5Base64 username password,
    { c with loginMap := Function.update c.loginMap username none })

/-- The response as it is parsed, if it can be. -/
def LoginRes (res : Option CLoginRes) (c : CAuthClient) : CAuthClient :=
  match res with
  | none => c
  | some res =>
    if res.username = "" then c
    else { c with loginMap := Function.update c.loginMap res.username (some res) }

/-- One look at the entry of a user. When there is none `getLoginInfo` goes on, otherwise it
returns true with a copy of the entry, or false. -/
def look (username : String) (c : CAuthClient) : Option (Option CLoginRes) :=
  (c.loginMap username).map fun info => if info.res = .OK then some info else none

/-- `clients i` is the client at the `i`-th look. -/
def getLoginInfo (username : String) (timeoutMs : Int) (clients : Nat → CAuthClient) :
    Bool × Option CLoginRes :=
  let count := if timeoutMs.tdiv 10 ≤ 0 then 1 else (timeoutMs.tdiv 10).toNat
  match (List.range count).findSome? fun i => (clients i).look username with
  | none => (false, none)
  | some info => (info.isSome, info)

/-- What it returns is what one of its looks finds, or it finds nothing until the time is up. -/
theorem getLoginInfo_look (username : String) (timeoutMs : Int) (clients : Nat → CAuthClient) :
    (∃ i info, (clients i).look username = some info ∧
      getLoginInfo username timeoutMs clients = (info.isSome, info)) ∨
    getLoginInfo username timeoutMs clients = (false, none) ∧
      ∀ i : Nat, (i = 0 ∨ (i : Int) < timeoutMs.tdiv 10) →
        (clients i).look username = none := by
  unfold getLoginInfo
  dsimp only
  split
  next nothing =>
    refine .inr ⟨rfl, fun i early => List.findSome?_eq_none_iff.mp nothing i ?_⟩
    rw [List.mem_range]
    split <;> omega
  next info found =>
    obtain ⟨i, -, look⟩ := List.exists_of_findSome?_eq_some found
    exact .inl ⟨i, info, look, rfl⟩

end CAuthClient

end MicroserviceFramework.Auth
