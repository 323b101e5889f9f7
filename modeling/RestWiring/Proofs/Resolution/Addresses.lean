import Mathlib.Data.List.DropRight
import Mathlib.Data.List.Infix
import RestWiring.Resolution.Node

/-!
# Addresses along chains of endpoints

The address of an endpoint is joined from those above it, level by level, and slashes are cut off at
every joint. What comes of it in the end is the root's address, then of each path on the way down what
stands between its outer slashes, where a path of slashes leaves nothing, and then the last path. No
other characters are lost, and none but slashes are added.
-/
namespace RestWiring.Endpoint

def isSlash (c : Char) : Bool := c = '/'

/-- Whether there is anything but slashes in a text. -/
def isSolid (text : List Char) : Bool := text.any fun c => !isSlash c

/-- A text without the slashes at its ends. -/
def stripped (text : List Char) : List Char := (text.dropWhile isSlash).rdropWhile isSlash

/-- A root's address and paths below it, up to the slash before the next path. -/
def stem (url : String) (paths : List String) : List Char :=
  url.toList.rdropWhile isSlash ++
    ((paths.map String.toList).filter isSolid).flatMap fun text => '/' :: stripped text

/-- A root's address, the paths below it, and a last path. -/
def address (url : String) (paths : List String) (last : String) : List Char :=
  stem url paths ++ '/' :: last.toList.dropWhile isSlash

/-- An endpoint stands below a root of an address by so many paths, the uppermost first. -/
inductive Chain (url : String) : Endpoint → List String → Prop
  | root {e : Endpoint} (location : e.location = .base url) : Chain url e []
  | down {base e : Endpoint} {paths : List String} {path : String} {params : List Param}
      (chain : Chain url base paths) (location : e.location = .relative path base params) :
    Chain url e (paths ++ [path])

/-- The place of a parameter in an address. -/
def placeholder (name : String) : List Char := '{' :: name.toList ++ ['}']

/-! ## Cutting off slashes -/

section Cutting

variable {text : List Char}

theorem isSolid_cons (c : Char) (text : List Char) :
    isSolid (c :: text) = (!isSlash c || isSolid text) := rfl

theorem isSolid_dropWhile (text : List Char) : isSolid (text.dropWhile isSlash) = isSolid text := by
  induction text with
  | nil => rfl
  | cons c text ih =>
    cases slash : isSlash c with
    | true => rw [List.dropWhile_cons_of_pos slash, ih, isSolid_cons, slash, Bool.not_true, Bool.false_or]
    | false => simp [slash]

theorem dropWhile_of_slashes (slashes : isSolid text = false) : text.dropWhile isSlash = [] := by
  rw [List.dropWhile_eq_nil_iff]
  simpa [isSolid] using slashes

theorem dropWhile_append (solid : isSolid text = true) (rest : List Char) :
    (text ++ rest).dropWhile isSlash = text.dropWhile isSlash ++ rest := by
  have left : ¬(text.dropWhile isSlash).isEmpty = true := fun none => by
    rw [← isSolid_dropWhile, List.isEmpty_iff.mp none] at solid
    cases solid
  rw [List.dropWhile_append, if_neg left]

theorem isSolid_reverse (text : List Char) : isSolid text.reverse = isSolid text := List.any_reverse

theorem rdropWhile_append (before : List Char) (solid : isSolid text = true) :
    (before ++ text).rdropWhile isSlash = before ++ text.rdropWhile isSlash := by
  rw [← isSolid_reverse] at solid
  simp only [List.rdropWhile, List.reverse_append, dropWhile_append solid, List.reverse_reverse]

theorem rdropWhile_of_slashes (slashes : isSolid text = false) : text.rdropWhile isSlash = [] := by
  rw [← isSolid_reverse] at slashes
  rw [List.rdropWhile, dropWhile_of_slashes slashes]
  rfl

theorem rdropWhile_cons (c : Char) (text : List Char) :
    (c :: text).rdropWhile isSlash =
      if isSolid (c :: text) then c :: text.rdropWhile isSlash else [] := by
  split
  · rename_i solid
    cases below : isSolid text with
    | true => exact rdropWhile_append [c] below
    | false =>
      have other : isSlash c = false := by simpa [isSolid_cons, below] using solid
      rw [← isSolid_reverse] at below
      simp [List.rdropWhile, List.dropWhile_append, dropWhile_of_slashes below, other]
  · rename_i slashes
    exact rdropWhile_of_slashes (Bool.eq_false_iff.mpr slashes)

/-- It does not matter which end is cut first. -/
theorem stripped_eq (text : List Char) :
    stripped text = (text.rdropWhile isSlash).dropWhile isSlash := by
  induction text with
  | nil => rfl
  | cons c text ih =>
    unfold stripped at ih ⊢
    rw [rdropWhile_cons]
    cases slash : isSlash c with
    | false => simp [isSolid_cons, slash, rdropWhile_cons]
    | true =>
      rw [List.dropWhile_cons_of_pos slash, ih]
      split
      · rw [List.dropWhile_cons_of_pos slash]
      · rename_i slashes
        have below : isSolid text = false := by simpa [isSolid_cons, slash] using slashes
        rw [rdropWhile_of_slashes below]

end Cutting

theorem joinUrl_eq (base path : List Char) :
    joinUrl base path = base.rdropWhile isSlash ++ '/' :: path.dropWhile isSlash := rfl

/-- Below a joined address, its path counts without the slashes at its ends. -/
theorem rdropWhile_joinUrl (base path : List Char) :
    (joinUrl base path).rdropWhile isSlash =
      base.rdropWhile isSlash ++ if isSolid path then '/' :: stripped path else [] := by
  rw [joinUrl_eq]
  cases solid : isSolid path with
  | true =>
    rw [← isSolid_dropWhile] at solid
    rw [List.append_cons, rdropWhile_append _ solid, ← List.append_cons]
    rfl
  | false =>
    rw [dropWhile_of_slashes solid, List.rdropWhile_concat_pos _ _ _ rfl, List.rdropWhile_idempotent]
    exact (List.append_nil _).symm

theorem joinUrl_assoc (a b c : List Char) :
    joinUrl (joinUrl a b) c = joinUrl a (joinUrl b c) := by
  have outer : joinUrl (joinUrl a b) c =
      (joinUrl a b).rdropWhile isSlash ++ '/' :: c.dropWhile isSlash := rfl
  have inner : joinUrl a (joinUrl b c) =
      a.rdropWhile isSlash ++ '/' ::
        (b.rdropWhile isSlash ++ '/' :: c.dropWhile isSlash).dropWhile isSlash := rfl
  rw [outer, inner, rdropWhile_joinUrl]
  -- The ends of the middle part are cut in two orders. If it is all slashes, nothing is left of it.
  cases solid : isSolid b with
  | true =>
    have left : isSolid (b.rdropWhile isSlash) = true := by
      rwa [List.rdropWhile, isSolid_reverse, isSolid_dropWhile, isSolid_reverse]
    rw [dropWhile_append left, ← stripped_eq]
    simp
  | false =>
    rw [rdropWhile_of_slashes solid, List.nil_append, List.dropWhile_cons_of_pos rfl,
      List.dropWhile_idempotent]
    simp

/-! ## Keeping all else -/

/-- The characters of a text that are no slashes. -/
def content (text : List Char) : List Char := text.filter fun c => !isSlash c

theorem content_dropWhile (text : List Char) : content (text.dropWhile isSlash) = content text := by
  induction text with
  | nil => rfl
  | cons c text ih =>
    cases slash : isSlash c with
    | true => simpa [content, slash] using ih
    | false => simp [slash]

theorem content_reverse (text : List Char) : content text.reverse = (content text).reverse :=
  List.filter_reverse ..

theorem content_joinUrl (base path : List Char) :
    content (joinUrl base path) = content base ++ content path := by
  have cut : content (base.rdropWhile isSlash) = content base := by
    rw [List.rdropWhile, content_reverse, content_dropWhile, content_reverse, List.reverse_reverse]
  have joint : content ('/' :: path.dropWhile isSlash) = content path := content_dropWhile path
  rw [joinUrl_eq, content, List.filter_append]
  exact congrArg₂ _ cut joint

theorem infix_dropWhile {c : Char} {part text : List Char} (inside : c :: part <:+: text)
    (other : isSlash c = false) : c :: part <:+: text.dropWhile isSlash := by
  induction text with
  | nil => exact inside
  | cons d text ih =>
    cases slash : isSlash d with
    | false => simpa [slash] using inside
    | true =>
      rw [List.dropWhile_cons_of_pos slash]
      rcases List.infix_cons_iff.mp inside with first | later
      · obtain ⟨rfl, -⟩ := List.cons_prefix_cons.mp first
        cases other.symm.trans slash
      · exact ih later

/-- Places of parameters are no slashes at either end, so that they stay what they are. -/
theorem placeholder_infix_joinUrl {name : String} {base path : List Char}
    (inside : placeholder name <:+: base ∨ placeholder name <:+: path) :
    placeholder name <:+: joinUrl base path := by
  rw [joinUrl_eq]
  rcases inside with above | last
  · have reversed : (placeholder name).reverse = '}' :: (name.toList.reverse ++ ['{']) := by
      simp [placeholder]
    have kept : placeholder name <:+: base.rdropWhile isSlash := by
      rw [← List.reverse_infix, reversed] at above ⊢
      rw [List.rdropWhile, List.reverse_reverse]
      exact infix_dropWhile above rfl
    exact kept.trans (List.prefix_append ..).isInfix
  · have kept : placeholder name <:+: path.dropWhile isSlash := infix_dropWhile last rfl
    exact kept.trans ((List.suffix_cons ..).trans (List.suffix_append ..)).isInfix

/-! ## Chains -/

theorem toList_url (e : Endpoint) : e.url.toList = e.urlChars := by
  obtain ⟨_, _, _, _, _, location⟩ := e
  cases location with
  | base url => rfl
  | relative path base params => exact String.toList_ofList ..

theorem urlChars_of_base {e : Endpoint} {url : String} (location : e.location = .base url) :
    e.urlChars = url.toList := by
  obtain ⟨_, _, _, _, _, _⟩ := e
  cases location
  rfl

theorem urlChars_of_relative {base e : Endpoint} {path : String} {params : List Param}
    (location : e.location = .relative path base params) :
    e.urlChars = joinUrl base.urlChars path.toList := by
  obtain ⟨_, _, _, _, _, _⟩ := e
  cases location
  rfl

namespace Chain

variable {url : String} {e : Endpoint} {paths : List String}

/-- What stands before the next slash at the end of a chain. -/
theorem rdropWhile_urlChars (chain : Chain url e paths) :
    e.urlChars.rdropWhile isSlash = stem url paths := by
  induction chain with
  | root location =>
    rw [urlChars_of_base location]
    exact (List.append_nil _).symm
  | @down base e paths path params chain location ih =>
    rw [urlChars_of_relative location, rdropWhile_joinUrl, ih]
    cases solid : isSolid path.toList <;> simp [stem, solid]

theorem last {path : String} (chain : Chain url e (paths ++ [path])) :
    ∃ base params, Chain url base paths ∧ e.location = .relative path base params := by
  generalize all : paths ++ [path] = given at chain
  cases chain with
  | root => simp at all
  | down chain location =>
    obtain ⟨rfl, ⟨⟩⟩ := List.append_inj' all rfl
    exact ⟨_, _, chain, location⟩

/-- The address at the end of a chain. -/
theorem url_eq {path : String} (chain : Chain url e (paths ++ [path])) :
    e.url.toList = address url paths path := by
  obtain ⟨base, params, above, location⟩ := chain.last
  rw [toList_url, urlChars_of_relative location, joinUrl_eq, above.rdropWhile_urlChars]
  rfl

/-- A path of slashes leaves nothing in the addresses below. -/
theorem stem_insert {blank : String} (slashes : isSolid blank.toList = false)
    (above below : List String) : stem url (above ++ blank :: below) = stem url (above ++ below) := by
  simp [stem, slashes]

theorem content_url (chain : Chain url e paths) :
    content e.url.toList = (url :: paths).flatMap fun part => content part.toList := by
  rw [toList_url]
  induction chain with
  | root location => simp [urlChars_of_base location]
  | down chain location ih => simp [urlChars_of_relative location, content_joinUrl, ih]

theorem placeholder_infix {name part : String} (chain : Chain url e paths)
    (member : part ∈ url :: paths) (inside : placeholder name <:+: part.toList) :
    placeholder name <:+: e.url.toList := by
  rw [toList_url]
  induction chain with
  | root location =>
    obtain rfl := List.mem_singleton.mp member
    rwa [urlChars_of_base location]
  | @down base e paths path params chain location ih =>
    rw [urlChars_of_relative location]
    apply placeholder_infix_joinUrl
    rw [← List.cons_append, List.mem_append, List.mem_singleton] at member
    rcases member with above | rfl
    · exact .inl (ih above)
    · exact .inr inside

end Chain

theorem exists_chain : (e : Endpoint) → ∃ url paths, Chain url e paths
  | ⟨_, _, _, _, _, .base url⟩ => ⟨url, [], .root rfl⟩
  | ⟨_, _, _, _, _, .relative path base _⟩ =>
    let ⟨url, paths, chain⟩ := exists_chain base
    ⟨url, paths ++ [path], chain.down rfl⟩

/-- Every endpoint is at the end of a chain, which determines its address. It does not matter in which
order the parts of a chain are joined, nor if a path of slashes comes in between. All that is no slash is
in the address, and so are the places of parameters. -/
theorem url_of_chain :
    (∀ e : Endpoint, ∃ url paths, Chain url e paths) ∧
      (∀ url e paths path, Chain url e (paths ++ [path]) →
        e.url = String.ofList (address url paths path)) ∧
      (∀ (e base : Endpoint) path params, e.location = .relative path base params →
        e.url = String.ofList (joinUrl base.url.toList path.toList)) ∧
      (∀ a b c, joinUrl (joinUrl a b) c = joinUrl a (joinUrl b c)) ∧
      (∀ url e e' above below path, ∀ blank : String, (∀ c ∈ blank.toList, c = '/') →
        Chain url e (above ++ below ++ [path]) → Chain url e' (above ++ blank :: below ++ [path]) →
        e'.url = e.url) ∧
      ∀ url e paths, Chain url e paths →
        content e.url.toList = ((url :: paths).flatMap fun part => content part.toList) ∧
        ∀ name, ∀ part ∈ url :: paths,
          placeholder name <:+: part.toList → placeholder name <:+: e.url.toList := by
  have read {e : Endpoint} {text : List Char} (chars : e.url.toList = text) :
      e.url = String.ofList text := by
    rw [← chars, String.ofList_toList]
  refine ⟨exists_chain, fun _ _ _ _ chain => read chain.url_eq, ?_, joinUrl_assoc, ?_,
    fun _ _ _ chain => ⟨chain.content_url, fun _ _ member => chain.placeholder_infix member⟩⟩
  · intro e base path params location
    apply read
    rw [toList_url, urlChars_of_relative location, toList_url]
  · intro url e e' above below path blank slashes chain chain'
    have empty : isSolid blank.toList = false := by simpa [isSolid, isSlash] using slashes
    rw [read chain.url_eq, read chain'.url_eq, address, address, Chain.stem_insert empty]

/-- An endpoint of which nothing is said but where it is. -/
def bare (location : Location) : Endpoint :=
  { name := "", description := "", method := .get, body := none, outputs := [], location }

def service : Endpoint := bare (.base "https://svc.example.com//")

def version : Endpoint := bare (.relative "/v1/" service [])

/-- Nothing but slashes stands between it and the endpoint above. -/
def detour : Endpoint := bare (.relative "//" version [])

def users : Endpoint := bare (.relative "/users/{scope}" detour [])

theorem url_of_chain_users :
    Chain "https://svc.example.com//" users ["/v1/", "//", "/users/{scope}"] ∧
      users.url = "https://svc.example.com/v1/users/{scope}" ∧
      placeholder "scope" <:+: users.url.toList := by
  obtain ⟨-, closed, -, -, -, kept⟩ := url_of_chain
  have top : Chain "https://svc.example.com//" service [] := .root rfl
  have second : Chain "https://svc.example.com//" version ["/v1/"] := top.down rfl
  have third : Chain "https://svc.example.com//" detour ["/v1/", "//"] := second.down rfl
  have chain : Chain "https://svc.example.com//" users ["/v1/", "//", "/users/{scope}"] :=
    third.down rfl
  refine ⟨chain, ?_, (kept _ _ _ chain).2 "scope" "/users/{scope}" (by decide) ?_⟩
  · rw [closed _ _ ["/v1/", "//"] _ chain]
    decide +kernel
  · exact ⟨"/users/".toList, [], by decide +kernel⟩

end RestWiring.Endpoint
