import Mathlib.Data.List.Infix
import Veckomenyn.Willys

/-!
The shopping provider over the Willys client.

A method logs in when it has to, runs its request, and on what looks like a rejected session
logs in again and runs the request once more.
-/

namespace Veckomenyn.WillysProvider

open CartTools Remote Willys

/-- Lower case, as far as it brings about ASCII letters: a dotted capital I and the Kelvin sign do
too. -/
def lower (c : Char) : Char :=
  if c = '\u0130' then 'i' else if c = '\u212a' then 'k' else c.toLower

def contains (s t : List Char) : Bool := t <:+: s

def looksLikeAuthError (e : Failure) : Bool :=
  e.auth ||
    let s := e.text.toList.map lower
    contains s "401".toList || contains s "unauthorized".toList ||
      contains s "403".toList || contains s "forbidden".toList

def ensureLoggedIn (force : Bool) : WillysProc Unit := do
  match ← Ask.credentials with
  | none => Proc.fail (failed "willys provider is not configured (Settings → Integrations)")
  | some creds => do
    let credsChanged ← Proc.read fun m => decide (creds ≠ m.creds)
    let loggedIn ← read Client.authenticated
    if !force && !credsChanged && loggedIn then pure () else do
      modify fun c => if credsChanged then c.clearState else c
      let _ ← (login creds.username creds.password).mapError (Failure.wrap "willys login")
      Proc.modify fun m => { m with creds := creds }

/-- Runs `fn`, and once more after a forced login if it fails as a rejected session does. -/
def withAuth {α : Type} (fn : WillysProc α) : WillysProc α := do
  ensureLoggedIn false
  match ← fn.attempt with
  | .ok a => pure a
  | .error e =>
    if !looksLikeAuthError e then Proc.fail e else do
      ensureLoggedIn true
      fn

/-! ### Methods -/

def search (query : String) (limit : ℤ) : WillysProc (List Product) := do
  let limit := if limit ≤ 0 then 10 else limit
  let res ← withAuth (searchProducts query 0 limit)
  pure (res.results ++ (res.relatedResults.take (limit - res.results.length).toNat).map
    fun r => { r with related := true })

def cartGet : WillysProc Cart := withAuth getCart

def cartAdd (code : String) (qty : ℤ) : WillysProc Cart :=
  withAuth (addToCart code (if qty ≤ 0 then 1 else qty))

def cartRemove (code : String) : WillysProc Cart := withAuth (removeFromCart code)

def cartClear : WillysProc Unit := withAuth clearCart

def ordersRecent (limit : ℤ) : WillysProc (List OrderSummary) := do
  let limit := if limit ≤ 0 then 5 else limit
  let list ← withAuth getOrderHistory
  pure (list.take limit.toNat)

def orderDetail (id : String) : WillysProc Order := withAuth (getOrderDetail id)

end Veckomenyn.WillysProvider
