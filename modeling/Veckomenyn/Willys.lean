import Veckomenyn.CartTools
import Veckomenyn.Remote

/-!
The client of the Willys API.

The client keeps the cookies and the CSRF token upstream has given it, and a flag that a
login sets once upstream has confirmed a real customer. The cart and the orders are asked for
with the flag set only. What a body decodes to is part of the answer it comes with.
-/

namespace Veckomenyn.Willys

open CartTools Remote

/-! ### Requests and answers -/

/-- Cookies by name. -/
abbrev Cookies := String → Option String

structure EncryptedCredential where
  key : String
  str : String
deriving DecidableEq

inductive Method where
  | get
  | post
  | delete
deriving DecidableEq

/-- What a request is for: its path, less the base URL. -/
inductive Route where
  | config
  | csrfToken
  | login
  | redirect (location : String)
  | customer
  | cart
  | addProducts
  | orders
  | orderDetail (number : String)
  | search (query : String) (page size : ℤ)
deriving DecidableEq

inductive Payload where
  | login (username password : EncryptedCredential)
  | products (code : String) (qty : ℤ)
deriving DecidableEq

structure Request where
  method : Method
  route : Route
  body : Option Payload
  csrf : Option String
  cookies : Cookies

structure Customer where
  uid : String
  name : String
  firstName : String
  lastName : String
  email : String
  storeId : String
deriving DecidableEq

structure SearchResult where
  results : List Product
  relatedResults : List Product

/-- A body: its first 200 bytes, and what it decodes to or why not. -/
structure Body where
  text : String
  token : Except String String
  customer : Except String Customer
  cart : Except String Cart
  search : Except String SearchResult
  orders : Except String (List OrderSummary)
  order : Except String Order

structure Response where
  status : ℕ
  setCookie : List String
  location : String
  body : Body

/-- An error: whether it is an `authErr`, and its text. -/
structure Failure where
  auth : Bool
  text : String
deriving DecidableEq

def failed (text : String) : Failure := ⟨false, text⟩

/-- `fmt.Errorf("…: %w", err)`. -/
def Failure.wrap (what : String) (e : Failure) : Failure := ⟨e.auth, what ++ ": " ++ e.text⟩

structure WillysCreds where
  username : String
  password : String
deriving DecidableEq

/-- What the client asks: a request to upstream, which may not get through, the encryption of a
credential, and the configured credentials. -/
inductive Query where
  | http (r : Request)
  | parseUrl (location : String)
  | encrypt (plaintext : String)
  | credentials

def Reply : Query → Type
  | .http _ => Except String Response
  | .parseUrl _ => Option String
  | .encrypt _ => Except String EncryptedCredential
  | .credentials => Option WillysCreds

/-! ### The client -/

structure Session where
  cookies : Cookies
  csrfToken : String

/-- `store` is the session that is saved, if one is. -/
structure Client where
  cookies : Cookies
  csrfToken : String
  authenticated : Bool
  store : Option Session

/-- The memory of a provider: its client, and the credentials of its last login. -/
structure Memory where
  client : Client
  creds : WillysCreds

abbrev WillysProc (α : Type) := Proc Memory Query Reply Failure α

namespace Ask

def http (r : Request) : WillysProc (Except String Response) := Proc.request (Query.http r)

/-- With the error when the URL does not parse. -/
def parseUrl (location : String) : WillysProc (Option String) :=
  Proc.request (Query.parseUrl location)

def encrypt (plaintext : String) : WillysProc (Except String EncryptedCredential) :=
  Proc.request (Query.encrypt plaintext)

def credentials : WillysProc (Option WillysCreds) := Proc.request Query.credentials

end Ask

/-- A client that has loaded the saved session. -/
def newClient (saved : Option Session) : Client :=
  match saved with
  | none => ⟨fun _ => none, "", false, none⟩
  | some s => ⟨s.cookies, s.csrfToken, false, some s⟩

def read {β : Type} (f : Client → β) : WillysProc β := Proc.read fun m => f m.client

def modify (f : Client → Client) : WillysProc Unit :=
  Proc.modify fun m => { m with client := f m.client }

def Client.clearState (_ : Client) : Client := ⟨fun _ => none, "", false, none⟩

def Client.saveSession (c : Client) : Client := { c with store := some ⟨c.cookies, c.csrfToken⟩ }

/-- White space, as Go's `unicode.IsSpace` has it. -/
def isSpace (c : Char) : Bool :=
  c ∈ ['\t', '\n', '\x0b', '\x0c', '\r', ' ', '\u0085', '\u00a0', '\u1680', '\u2028', '\u2029',
    '\u202f', '\u205f', '\u3000'] || decide (0x2000 ≤ c.toNat ∧ c.toNat ≤ 0x200a)

def trimSpace (cs : List Char) : String :=
  String.ofList ((cs.dropWhile isSpace).reverse.dropWhile isSpace).reverse

/-- The name and the value of a `Set-Cookie` header, unless it has no name. -/
def cookieOf (header : String) : Option (String × String) :=
  let nameVal := header.toList.takeWhile (· ≠ ';')
  let name := nameVal.takeWhile (· ≠ '=')
  match name, nameVal.drop name.length with
  | _ :: _, _ :: value => some (trimSpace name, trimSpace value)
  | _, _ => none

def setCookies (headers : List String) (cs : Cookies) : Cookies :=
  (headers.filterMap cookieOf).foldl (fun cs nv => Function.update cs nv.1 (some nv.2)) cs

def Client.parseCookies (r : Response) (c : Client) : Client :=
  { c with cookies := setCookies r.setCookie c.cookies }

/-- The request, with the session of the moment. -/
def Client.request (method : Method) (route : Route) (body : Option Payload) (c : Client) :
    Request :=
  ⟨method, route, body, if method ≠ .get ∧ c.csrfToken ≠ "" then some c.csrfToken else none,
    c.cookies⟩

/-- `do`, for a URL that parses. -/
def doRequest (method : Method) (route : Route) (body : Option Payload) : WillysProc Response := do
  let req ← read (Client.request method route body)
  match ← Ask.http req with
  | .error e => Proc.fail (failed e)
  | .ok resp => do
    modify (Client.parseCookies resp)
    pure resp

/-- `do`, for the target of a redirect: the URL may not parse. -/
def follow (location : String) : WillysProc Response := do
  match ← Ask.parseUrl location with
  | some e => Proc.fail (failed e)
  | none => doRequest .get (.redirect location) none

def fetchCSRFToken : WillysProc Unit := do
  let resp ← (doRequest .get .csrfToken none).mapError (Failure.wrap "fetching CSRF token")
  if resp.status ≠ 200 then
    Proc.fail (failed ("CSRF token request failed: " ++ toString resp.status))
  else match resp.body.token with
    | .error e => Proc.fail (failed ("decoding CSRF token: " ++ e))
    | .ok token => modify fun c => { c with csrfToken := token }

def ensureSession : WillysProc Unit := do
  let hasSession ← read fun c => (c.cookies "JSESSIONID").isSome
  if hasSession then pure () else do
    let _ ← (doRequest .get .config none).mapError (Failure.wrap "establishing session")
    pure ()

def encryptCredential (what plaintext : String) : WillysProc EncryptedCredential := do
  match ← Ask.encrypt plaintext with
  | .error e => Proc.fail (failed ("encrypting " ++ what ++ ": " ++ e))
  | .ok c => pure c

/-- A `GET` for a body that decodes. -/
def fetch {α : Type} (route : Route) (what : String) (decode : Body → Except String α) :
    WillysProc α := do
  let resp ← doRequest .get route none
  if resp.status ≠ 200 then Proc.fail (failed (what ++ " failed: " ++ toString resp.status))
  else match decode resp.body with
    | .error e => Proc.fail (failed e)
    | .ok a => pure a

def getCustomer : WillysProc Customer := fetch .customer "get customer" Body.customer

/-- A customer upstream knows, not a guest. -/
def isAuthenticated (c : Customer) : Bool :=
  c.name ≠ "anonymous" && (c.uid ≠ "" && c.firstName ≠ "")

/-- `authErr` without a reason. -/
def authErr (status : ℕ) : Failure := ⟨true, "auth failed: " ++ toString status⟩

def anonymous : Failure :=
  ⟨true, "auth failed: anonymous session after login (bad credentials)"⟩

def followLocation (location : String) : WillysProc Unit :=
  if location = "" then pure () else do
    let _ ← (follow location).mapError (Failure.wrap "following login redirect")
    pure ()

/-- What a login does once its request has been answered. -/
def confirm (resp : Response) : WillysProc Customer :=
  if resp.status = 401 ∨ resp.status = 403 then do
    modify Client.clearState
    Proc.fail (authErr resp.status)
  else if 400 ≤ resp.status then do
    modify Client.clearState
    Proc.fail (failed ("login failed (" ++ toString resp.status ++ "): " ++ resp.body.text))
  else do
    followLocation resp.location
    fetchCSRFToken
    let cust ← getCustomer
    if !isAuthenticated cust then do
      modify Client.clearState
      Proc.fail anonymous
    else do
      modify fun c => { c with authenticated := true }
      modify Client.saveSession
      pure cust

def login (username password : String) : WillysProc Customer := do
  ensureSession
  fetchCSRFToken
  let encUser ← encryptCredential "username" username
  let encPass ← encryptCredential "password" password
  let resp ← (doRequest .post .login (some (.login encUser encPass))).mapError
    (Failure.wrap "login request")
  confirm resp

/-! ### The cart and the orders -/

def requireAuth : WillysProc Unit := do
  let ok ← read Client.authenticated
  if ok then pure () else Proc.fail ⟨true, "auth failed: not logged in"⟩

def ensureCSRF : WillysProc Unit := do
  let missing ← read fun c => decide (c.csrfToken = "")
  if missing then fetchCSRFToken else pure ()

def getCart : WillysProc Cart := do
  requireAuth
  fetch .cart "get cart" Body.cart

def addToCart (code : String) (qty : ℤ) : WillysProc Cart := do
  requireAuth
  ensureCSRF
  let resp ← doRequest .post .addProducts (some (.products code qty))
  if resp.status ≠ 200 then
    Proc.fail (failed ("add to cart failed (" ++ toString resp.status ++ "): " ++ resp.body.text))
  else getCart

def removeFromCart (code : String) : WillysProc Cart := addToCart code 0

def clearCart : WillysProc Unit := do
  requireAuth
  ensureCSRF
  let resp ← doRequest .delete .cart none
  if resp.status ≠ 200 then
    Proc.fail (failed ("clear cart failed: " ++ toString resp.status))
  else pure ()

def getOrderHistory : WillysProc (List OrderSummary) := do
  requireAuth
  fetch .orders "get order history" Body.orders

def getOrderDetail (number : String) : WillysProc Order := do
  requireAuth
  fetch (.orderDetail number) "get order detail" Body.order

def searchProducts (query : String) (page size : ℤ) : WillysProc SearchResult :=
  fetch (.search query page size) "search" Body.search

end Veckomenyn.Willys
