import RestWiring.Json
import RestWiring.Text

/-!
# Resolved declarations

A resolved declaration holds the declarations that it refers to, to any depth, so it can be read
without the graph that it came from.
-/
namespace RestWiring

inductive Method where
  | get | put | post | patch | delete
  deriving DecidableEq, Repr

namespace Method

def text : Method → String
  | .get => "GET"
  | .put => "PUT"
  | .post => "POST"
  | .patch => "PATCH"
  | .delete => "DELETE"

/-- Reads a method in any mixture of cases. -/
def ofText? (word : String) : Option Method :=
  match Text.lower word with
  | "get" => some .get
  | "put" => some .put
  | "post" => some .post
  | "patch" => some .patch
  | "delete" => some .delete
  | _ => none

/-- Methods that send a request body. -/
def requiresBody : Method → Bool
  | .post | .put | .patch => true
  | .get | .delete => false

end Method

/-- What a function writes its results into. -/
inductive SinkKind where
  | queue | bucket | table | topic
  deriving DecidableEq, Repr

namespace SinkKind

def text : SinkKind → String
  | .queue => "queue"
  | .bucket => "bucket"
  | .table => "table"
  | .topic => "topic"

def ofText? : String → Option SinkKind
  | "queue" => some .queue
  | "bucket" => some .bucket
  | "table" => some .table
  | "topic" => some .topic
  | _ => none

def rank : SinkKind → Nat
  | .queue => 0
  | .bucket => 1
  | .table => 2
  | .topic => 3

instance : Key SinkKind := Key.ofRank rank (by intro a b; cases a <;> cases b <;> simp [rank])

end SinkKind

inductive OutputKind where
  | blob | table | queue | database
  deriving DecidableEq, Repr

namespace OutputKind

def text : OutputKind → String
  | .blob => "blob"
  | .table => "table"
  | .queue => "queue"
  | .database => "database"

/-- Reads a kind in any mixture of cases. -/
def ofText? (word : String) : Option OutputKind :=
  match Text.lower word with
  | "blob" => some .blob
  | "table" => some .table
  | "queue" => some .queue
  | "database" => some .database
  | _ => none

def sink : OutputKind → SinkKind
  | .blob => .bucket
  | .table | .database => .table
  | .queue => .queue

end OutputKind

structure Output where
  name : String
  description : String
  kind : OutputKind
  target : String
  config : SortedMap String Json
  deriving BEq, Repr

mutual

structure Endpoint where
  name : String
  description : String
  method : Method
  body : Option Json
  outputs : List Output
  location : Location

/-- Where an endpoint is reached: at an address of its own, or below another endpoint. -/
inductive Location where
  | base (url : String)
  | relative (path : String) (base : Endpoint) (params : List Param)

structure Param where
  name : String
  description : String
  type : String
  resolver : Resolver

/-- A resolver supplies values to parameters while a function runs. -/
structure Resolver where
  name : String
  description : String
  authentication : Option Json
  source : Source

inductive Source where
  | endpoint (endpoint : Endpoint) (select : Option String)
  | database (connectionString : String) (table : String)

end

mutual

def Endpoint.same : Endpoint → Endpoint → Bool
  | ⟨n, d, m, b, o, l⟩, ⟨n', d', m', b', o', l'⟩ =>
    n == n' && d == d' && m == m' && b == b' && o == o' && l.same l'

def Location.same : Location → Location → Bool
  | .base u, .base u' => u == u'
  | .relative p b ps, .relative p' b' ps' => p == p' && b.same b' && sameParams ps ps'
  | _, _ => false

def sameParams : List Param → List Param → Bool
  | [], [] => true
  | p :: ps, q :: qs => p.same q && sameParams ps qs
  | _, _ => false

def Param.same : Param → Param → Bool
  | ⟨n, d, t, r⟩, ⟨n', d', t', r'⟩ => n == n' && d == d' && t == t' && r.same r'

def Resolver.same : Resolver → Resolver → Bool
  | ⟨n, d, a, s⟩, ⟨n', d', a', s'⟩ => n == n' && d == d' && a == a' && s.same s'

def Source.same : Source → Source → Bool
  | .endpoint e s, .endpoint e' s' => e.same e' && s == s'
  | .database c t, .database c' t' => c == c' && t == t'
  | _, _ => false

end

instance : BEq Endpoint := ⟨Endpoint.same⟩

instance : BEq Param := ⟨Param.same⟩

instance : BEq Resolver := ⟨Resolver.same⟩

namespace Endpoint

/-- One slash between two parts of an address, whatever slashes the parts have there. -/
def joinUrl (base path : List Char) : List Char :=
  (base.reverse.dropWhile (· = '/')).reverse ++ '/' :: path.dropWhile (· = '/')

def urlChars : Endpoint → List Char
  | ⟨_, _, _, _, _, .base url⟩ => url.toList
  | ⟨_, _, _, _, _, .relative path base _⟩ => joinUrl base.urlChars path.toList

/-- The full address, with the places for parameters left as they are. -/
def url (e : Endpoint) : String :=
  match e.location with
  | .base url => url
  | .relative .. => String.ofList e.urlChars

def params (e : Endpoint) : List Param :=
  match e.location with
  | .base _ => []
  | .relative _ _ params => params

def isRelative (e : Endpoint) : Bool :=
  match e.location with
  | .base _ => false
  | .relative .. => true

/-- The endpoint that an endpoint stands below. -/
def base? (e : Endpoint) : Option Endpoint :=
  match e.location with
  | .base _ => none
  | .relative _ base _ => some base

end Endpoint

/-- The endpoint that a resolver reads from. -/
def Resolver.endpoint? (r : Resolver) : Option Endpoint :=
  match r.source with
  | .endpoint e _ => some e
  | .database .. => none

end RestWiring
