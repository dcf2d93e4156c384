/-
This file is the library of request routing. A request names its target by an
escaped path; a router cuts the escaped path at its slashes, decodes each piece
and walks the patterns with it, a literal before a wildcard. What runs before
the router looks at the path decoded as a whole. The two agree in one
direction: the literal pieces that a matching pattern starts with stand, slash
by slash, at the start of the decoded path.
-/

import Multimux.Paths

namespace Multimux

/-! ### Escaped paths -/

/-- The value of a digit of base sixteen, in either case. -/
def hexDigit (letter : Char) : Option Nat :=
  if '0' ≤ letter ∧ letter ≤ '9' then some (letter.toNat - '0'.toNat)
  else if 'a' ≤ letter ∧ letter ≤ 'f' then some (letter.toNat - 'a'.toNat + 10)
  else if 'A' ≤ letter ∧ letter ≤ 'F' then some (letter.toNat - 'A'.toNat + 10)
  else none

/-- `url.PathUnescape`; text is its bytes, each written as the character of that number. -/
def pathUnescape : List Char → Option (List Char)
  | [] => some []
  | '%' :: high :: low :: rest => do
    let high ← hexDigit high
    let low ← hexDigit low
    let rest ← pathUnescape rest
    return Char.ofNat (16 * high + low) :: rest
  | '%' :: _ => none
  | letter :: rest => (pathUnescape rest).map (letter :: ·)

theorem hexDigit_slash : hexDigit '/' = none := rfl

theorem pathUnescape_cons {letter : Char} (plain : letter ≠ '%') (rest : List Char) :
    pathUnescape (letter :: rest) = (pathUnescape rest).map (letter :: ·) := by
  rw [pathUnescape]
  · exact fun _ _ _ percent _ => plain percent
  · exact plain

/-- Decoding works piece by piece: an escape does not reach past a slash. -/
theorem pathUnescape_append (first second : List Char) :
    pathUnescape (first ++ '/' :: second) =
      (pathUnescape first).bind fun head =>
        (pathUnescape second).map fun tail => head ++ '/' :: tail := by
  fun_induction pathUnescape first with
  | case1 => rfl
  | case2 high low rest inductionHypothesis =>
    simp only [List.cons_append, pathUnescape, inductionHypothesis]
    cases hexDigit high <;> cases hexDigit low <;> cases pathUnescape rest <;> try rfl
    cases pathUnescape second <;> rfl
  | case3 rest short =>
    match rest, short with
    | [], _ => cases second <;> rfl
    | [one], _ =>
      simp only [List.cons_append, List.nil_append, pathUnescape, hexDigit_slash]
      cases hexDigit one <;> rfl
    | high :: low :: rest, short => exact absurd rfl (short high low rest)
  | case4 letter rest _ plain inductionHypothesis =>
    rw [List.cons_append, pathUnescape_cons plain, inductionHypothesis]
    cases pathUnescape rest <;> cases pathUnescape second <;> rfl

/-- A piece of a path as the router reads it; a piece that does not decode stands for itself. -/
def decodePiece (piece : List Char) : List Char := (pathUnescape piece).getD piece

/-- The segments of a path from its pieces; the empty piece after a trailing slash is read as
the slash. -/
def segmentsOf : List (List Char) → List (List Char)
  | [] => []
  | [[]] => [['/']]
  | piece :: rest => decodePiece piece :: segmentsOf rest

/-- Decoding the joined pieces decodes each of them. -/
theorem pathUnescape_intercalate {pieces : List (List Char)} (some' : pieces ≠ [])
    {path : List Char} (decoded : pathUnescape (['/'].intercalate pieces) = some path) :
    '/' :: path = pieces.flatMap fun piece => '/' :: decodePiece piece := by
  induction pieces generalizing path with
  | nil => exact absurd rfl some'
  | cons piece rest inductionHypothesis =>
    cases rest with
    | nil =>
      have whole : pathUnescape piece = some path := by simpa using decoded
      simp [decodePiece, whole]
    | cons next rest =>
      rw [List.intercalate_cons_cons, List.append_assoc, List.singleton_append,
        pathUnescape_append] at decoded
      obtain ⟨head, first, later⟩ := Option.bind_eq_some_iff.mp decoded
      obtain ⟨tail, second, rfl⟩ := Option.map_eq_some_iff.mp later
      rw [List.flatMap_cons, ← inductionHypothesis (List.cons_ne_nil _ _) second]
      simp [decodePiece, first]

/-- The decoded path, put together from its pieces. -/
theorem decoded_of_pieces {escaped path : List Char}
    (decoded : pathUnescape ('/' :: escaped) = some path) :
    path = (escaped.splitOn '/').flatMap fun piece => '/' :: decodePiece piece := by
  rw [pathUnescape_cons (by decide)] at decoded
  obtain ⟨tail, rest, rfl⟩ := Option.map_eq_some_iff.mp decoded
  have joined : ['/'].intercalate (escaped.splitOn '/') = escaped := List.intercalate_splitOn '/'
  rw [← joined] at rest
  exact pathUnescape_intercalate (List.splitOn_ne_nil _ _) rest

/-! ### Patterns -/

section Routing

variable {Handler : Type*}

/-- A segment of a pattern. -/
inductive Segment
  | literal (text : List Char)
  | wildcard
  deriving DecidableEq

/-- What is left of the patterns after their first segment. -/
def descend (first : Segment) (patterns : List (List Segment × Handler)) :
    List (List Segment × Handler) :=
  patterns.filterMap fun entry =>
    match entry.1 with
    | [] => none
    | segment :: rest => if segment = first then some (rest, entry.2) else none

/-- The handler of the pattern that matches, and what its wildcards stand for. A literal is tried
before a wildcard, and a trailing slash matches neither. -/
def matchPath : List (List Segment × Handler) → List (List Char) →
    Option (Handler × List (List Char))
  | patterns, [] => (patterns.find? (·.1.isEmpty)).map fun entry => (entry.2, [])
  | patterns, segment :: rest =>
    if segment = ['/'] then none
    else (matchPath (descend (.literal segment) patterns) rest).or
      ((matchPath (descend .wildcard patterns) rest).map fun found =>
        (found.1, segment :: found.2))

/-- A pattern matches some segments. -/
inductive Matches : List Segment → List (List Char) → Prop
  | nil : Matches [] []
  | literal {text : List Char} {pattern : List Segment} {segments : List (List Char)}
      (noSlash : text ≠ ['/']) (rest : Matches pattern segments) :
      Matches (.literal text :: pattern) (text :: segments)
  | wildcard {text : List Char} {pattern : List Segment} {segments : List (List Char)}
      (noSlash : text ≠ ['/']) (rest : Matches pattern segments) :
      Matches (.wildcard :: pattern) (text :: segments)

theorem mem_descend {first : Segment} {patterns : List (List Segment × Handler)}
    {entry : List Segment × Handler} (member : entry ∈ descend first patterns) :
    (first :: entry.1, entry.2) ∈ patterns := by
  obtain ⟨⟨pattern, handler⟩, present, taken⟩ := List.mem_filterMap.mp member
  cases pattern with
  | nil => cases taken
  | cons segment rest =>
    dsimp only at taken
    split at taken
    · rename_i same
      cases same
      cases taken
      exact present
    · cases taken

/-- What the router finds is a pattern that matches. -/
theorem matches_of_matchPath {patterns : List (List Segment × Handler)}
    {segments values : List (List Char)} {handler : Handler}
    (found : matchPath patterns segments = some (handler, values)) :
    ∃ pattern, (pattern, handler) ∈ patterns ∧ Matches pattern segments := by
  induction segments generalizing patterns values with
  | nil =>
    obtain ⟨⟨pattern, other⟩, first, same⟩ := Option.map_eq_some_iff.mp found
    cases same
    have empty := List.find?_some first
    obtain rfl := List.isEmpty_iff.mp empty
    exact ⟨[], List.mem_of_find?_eq_some first, .nil⟩
  | cons segment rest inductionHypothesis =>
    rw [matchPath] at found
    split at found
    · cases found
    · rename_i noSlash
      rcases Option.or_eq_some_iff.mp found with literal | ⟨-, wildcard⟩
      · obtain ⟨pattern, member, fits⟩ := inductionHypothesis literal
        exact ⟨_, mem_descend member, .literal noSlash fits⟩
      · obtain ⟨⟨other, rest⟩, later, same⟩ := Option.map_eq_some_iff.mp wildcard
        cases same
        obtain ⟨pattern, member, fits⟩ := inductionHypothesis later
        exact ⟨_, mem_descend member, .wildcard noSlash fits⟩

/-- The text that a pattern fixes at the start of a path. -/
def literalPrefix : List Segment → List Char
  | [] => []
  | .literal text :: rest => '/' :: text ++ literalPrefix rest
  | .wildcard :: _ => ['/']

/-- A path that a pattern matches starts, once decoded, with the literals of the pattern. -/
theorem literalPrefix_isPrefix {pattern : List Segment} {pieces : List (List Char)}
    (fits : Matches pattern (segmentsOf pieces)) :
    literalPrefix pattern <+: pieces.flatMap fun piece => '/' :: decodePiece piece := by
  fun_induction segmentsOf pieces generalizing pattern with
  | case1 =>
    cases fits
    exact List.nil_prefix
  | case2 =>
    cases fits with
    | literal noSlash => exact absurd rfl noSlash
    | wildcard noSlash => exact absurd rfl noSlash
  | case3 piece rest _ inductionHypothesis =>
    rw [List.flatMap_cons]
    cases fits with
    | literal _ fits => exact (List.prefix_append_right_inj _).mpr (inductionHypothesis fits)
    | wildcard => exact List.prefix_append _ _ |>.trans (List.prefix_append _ _)

/-! ### Routes -/

/-- A pattern for the requests of one method. -/
structure MuxEntry (Handler : Type*) where
  method : String
  pattern : List Segment
  handler : Handler

/-- A router; `fallback` is the handler of the pattern `/`, which takes every method and every
path. -/
structure Mux (Handler : Type*) where
  routes : List (MuxEntry Handler)
  fallback : Handler

/-- What a router does with a request. -/
inductive Routed (Handler : Type*)
  | badRequest
  | redirect
  | found (handler : Handler) (values : List (List Char))

/-- `cleanPath` of `net/http`, which keeps a trailing slash. -/
def canonicalPath (path : List Char) : List Char :=
  if path.getLast? = some '/' ∧ cleanPath path ≠ ['/'] then cleanPath path ++ ['/']
  else cleanPath path

/-- The route of a method and a path, if there is one. -/
def Mux.find (mux : Mux Handler) (method : String) (path : List Char) :
    Option (Handler × List (List Char)) :=
  matchPath ((mux.routes.filter (·.method = method)).map fun route =>
    (route.pattern, route.handler)) (segmentsOf (path.tail.splitOn '/'))

/-- `findHandler`: a path that is not clean is redirected, except for `CONNECT`; a `HEAD` request
may take the route of a `GET`. -/
def Mux.handler (mux : Mux Handler) (method : String) (escaped : List Char) : Routed Handler :=
  if escaped = ['*'] then .badRequest
  else if escaped = [] ∨ method ≠ "CONNECT" ∧ canonicalPath escaped ≠ escaped then .redirect
  else
    match (mux.find method escaped).or (if method = "HEAD" then mux.find "GET" escaped else none)
    with
    | some (handler, values) => .found handler values
    | none => .found mux.fallback []

theorem canonicalPath_rooted (path : List Char) : ∃ rest, canonicalPath path = '/' :: rest := by
  have clean : ∃ rest, cleanPath path = '/' :: rest := by
    unfold cleanPath render
    cases cleanFrom [] (components path) with
    | nil => exact ⟨[], rfl⟩
    | cons name names => exact ⟨name ++ names.flatMap ('/' :: ·), by simp⟩
  obtain ⟨rest, spelled⟩ := clean
  unfold canonicalPath
  rw [spelled]
  split
  · exact ⟨rest ++ ['/'], rfl⟩
  · exact ⟨rest, rfl⟩

theorem Mux.find_eq_some {mux : Mux Handler} {method : String} {path : List Char}
    {handler : Handler} {values : List (List Char)}
    (found : mux.find method path = some (handler, values)) :
    ∃ route ∈ mux.routes, route.method = method ∧ route.handler = handler ∧
      Matches route.pattern (segmentsOf (path.tail.splitOn '/')) := by
  obtain ⟨pattern, member, fits⟩ := matches_of_matchPath found
  obtain ⟨route, present, same⟩ := List.mem_map.mp member
  cases same
  obtain ⟨listed, right⟩ := List.mem_filter.mp present
  exact ⟨route, listed, of_decide_eq_true right, rfl, fits⟩

/-- A handler that is not the fallback is reached through one of its routes: by the route's
method, or by `HEAD` in place of `GET`, and at a path that starts, decoded, with the literals of
the route's pattern. -/
theorem Mux.route_of_found {mux : Mux Handler} {method : String} {escaped path : List Char}
    {handler : Handler} {values : List (List Char)}
    (ordinary : ∀ route ∈ mux.routes, route.method ≠ "CONNECT")
    (decoded : pathUnescape escaped = some path)
    (found : mux.handler method escaped = .found handler values) :
    handler = mux.fallback ∨ ∃ route ∈ mux.routes, route.handler = handler ∧
      (route.method = method ∨ method = "HEAD" ∧ route.method = "GET") ∧
      literalPrefix route.pattern <+: path := by
  unfold Mux.handler at found
  split at found
  · cases found
  · split at found
    · cases found
    · rename_i direct
      rw [not_or, not_and, not_not] at direct
      split at found
      · rename_i taken
        cases found
        have routed : ∃ route ∈ mux.routes, route.handler = handler ∧
            (route.method = method ∨ method = "HEAD" ∧ route.method = "GET") ∧
            Matches route.pattern (segmentsOf (escaped.tail.splitOn '/')) := by
          rcases Option.or_eq_some_iff.mp taken with exact' | ⟨-, head⟩
          · obtain ⟨route, listed, same, handles, fits⟩ := Mux.find_eq_some exact'
            exact ⟨route, listed, handles, .inl same, fits⟩
          · split at head
            · rename_i isHead
              obtain ⟨route, listed, same, handles, fits⟩ := Mux.find_eq_some head
              exact ⟨route, listed, handles, .inr ⟨isHead, same⟩, fits⟩
            · cases head
        obtain ⟨route, listed, handles, methods, fits⟩ := routed
        refine .inr ⟨route, listed, handles, methods, ?_⟩
        have notConnect : method ≠ "CONNECT" := by
          rintro rfl
          rcases methods with same | ⟨impossible, -⟩
          · exact ordinary route listed same
          · exact absurd impossible (by decide)
        obtain ⟨rest, rooted⟩ := canonicalPath_rooted escaped
        rw [direct.2 notConnect] at rooted
        subst rooted
        rw [decoded_of_pieces decoded]
        exact literalPrefix_isPrefix fits
      · cases found
        exact .inl rfl

end Routing

end Multimux
