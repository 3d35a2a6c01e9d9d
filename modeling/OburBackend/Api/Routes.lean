import Mathlib.Data.List.Pairwise
import OburBackend.RateLimit.RouteMatch
import OburBackend.RequestContext.Middleware

/-!
# The declared routes (`app/api/v1`, `app/main.py`)

`routes` is what the routers declare, in the order in which the application includes them;
`/health`, which `app/main.py` declares itself and after them, is left out. That order does not
matter, for no path without a line feed is served by two of them (`routeOf_perm`). Two parts of the
code look at a path without the router's tables and come to the same route: the rate limiter is
strict for the routes that it lists, and for no other (`tierFor_route_iff`), and the log line of a
matched request carries the template of its route (`routePattern_template`).
-/

namespace OburBackend

open Text RateLimit RequestContext

/-- A route: the name of its handler, its method, the prefix of its router, its path under the
router, and the status of a success. -/
structure Route where
  endpoint : String
  method : String
  router : String
  path : String
  status : ℕ
  deriving DecidableEq, Repr

/-- `_API_V1_PREFIX` -/
def apiV1Prefix : String := "/api/v1"

namespace Route

/-- `path_format`, as the framework reports it: without the prefix under which the router is
included. -/
def pathFormat (r : Route) : String := r.router ++ r.path

/-- The template of the whole path. -/
def template (r : Route) : String := apiV1Prefix ++ r.pathFormat

end Route

def routes : List Route := [
  -- `app/api/v1/users.py`
  ⟨"get_me", "GET", "/users", "/me", 200⟩,
  ⟨"update_me", "PATCH", "/users", "/me", 200⟩,
  ⟨"freeze_me", "POST", "/users", "/me/freeze", 200⟩,
  ⟨"delete_me", "DELETE", "/users", "/me", 204⟩,
  ⟨"list_user_checkins", "GET", "/users", "/{user_id}/checkins", 200⟩,
  ⟨"list_user_lists", "GET", "/users", "/{user_id}/lists", 200⟩,
  ⟨"list_user_venue_saves", "GET", "/users", "/{user_id}/venue-saves", 200⟩,
  ⟨"list_my_bookmarked_checkins", "GET", "/users", "/me/bookmarks/checkins", 200⟩,
  ⟨"list_my_bookmarked_lists", "GET", "/users", "/me/bookmarks/lists", 200⟩,
  -- `app/api/v1/venues.py`
  ⟨"create_venue", "POST", "/venues", "", 201⟩,
  ⟨"list_venues", "GET", "/venues", "", 200⟩,
  ⟨"get_venue", "GET", "/venues", "/{venue_id}", 200⟩,
  ⟨"list_venue_checkins", "GET", "/venues", "/{venue_id}/checkins", 200⟩,
  -- `app/api/v1/venue_categories.py`
  ⟨"list_venue_categories", "GET", "/venue-categories", "", 200⟩,
  -- `app/api/v1/checkins.py`
  ⟨"create_checkin", "POST", "/checkins", "", 201⟩,
  ⟨"get_checkin", "GET", "/checkins", "/{checkin_id}", 200⟩,
  ⟨"update_checkin", "PATCH", "/checkins", "/{checkin_id}", 200⟩,
  ⟨"delete_checkin", "DELETE", "/checkins", "/{checkin_id}", 204⟩,
  ⟨"like_checkin", "POST", "/checkins", "/{checkin_id}/like", 204⟩,
  ⟨"unlike_checkin", "DELETE", "/checkins", "/{checkin_id}/like", 204⟩,
  ⟨"bookmark_checkin", "POST", "/checkins", "/{checkin_id}/bookmark", 204⟩,
  ⟨"unbookmark_checkin", "DELETE", "/checkins", "/{checkin_id}/bookmark", 204⟩,
  -- `app/api/v1/follows.py`
  ⟨"follow_user", "POST", "/users", "/{user_id}/follow", 204⟩,
  ⟨"unfollow_user", "DELETE", "/users", "/{user_id}/follow", 204⟩,
  ⟨"remove_follower", "DELETE", "/users", "/me/followers/{follower_id}", 204⟩,
  ⟨"list_followers", "GET", "/users", "/{user_id}/followers", 200⟩,
  ⟨"list_following", "GET", "/users", "/{user_id}/following", 200⟩,
  -- `app/api/v1/close_friends.py`
  ⟨"add_close_friend", "POST", "/users", "/me/close-friends/{friend_id}", 204⟩,
  ⟨"remove_close_friend", "DELETE", "/users", "/me/close-friends/{friend_id}", 204⟩,
  ⟨"list_close_friends", "GET", "/users", "/me/close-friends", 200⟩,
  -- `app/api/v1/blocks.py`
  ⟨"block_user", "POST", "/users", "/{user_id}/block", 204⟩,
  ⟨"unblock_user", "DELETE", "/users", "/{user_id}/block", 204⟩,
  ⟨"list_blocked_users", "GET", "/users", "/me/blocks", 200⟩,
  -- `app/api/v1/mutes.py`
  ⟨"mute_user", "POST", "/users", "/{user_id}/mute", 204⟩,
  ⟨"unmute_user", "DELETE", "/users", "/{user_id}/mute", 204⟩,
  ⟨"list_muted_users", "GET", "/users", "/me/mutes", 200⟩,
  -- `app/api/v1/lists.py`
  ⟨"create_list", "POST", "/lists", "", 201⟩,
  ⟨"get_list", "GET", "/lists", "/{list_id}", 200⟩,
  ⟨"update_list", "PATCH", "/lists", "/{list_id}", 200⟩,
  ⟨"delete_list", "DELETE", "/lists", "/{list_id}", 204⟩,
  ⟨"list_items", "GET", "/lists", "/{list_id}/items", 200⟩,
  ⟨"add_list_item", "POST", "/lists", "/{list_id}/items", 201⟩,
  ⟨"move_list_item", "PATCH", "/lists", "/{list_id}/items/{item_id}/move", 200⟩,
  ⟨"remove_list_item", "DELETE", "/lists", "/{list_id}/items/{item_id}", 204⟩,
  ⟨"like_list", "POST", "/lists", "/{list_id}/like", 204⟩,
  ⟨"unlike_list", "DELETE", "/lists", "/{list_id}/like", 204⟩,
  ⟨"bookmark_list", "POST", "/lists", "/{list_id}/bookmark", 204⟩,
  ⟨"unbookmark_list", "DELETE", "/lists", "/{list_id}/bookmark", 204⟩,
  -- `app/api/v1/venue_saves.py`
  ⟨"save_venue", "POST", "/venue-saves", "", 201⟩,
  ⟨"get_venue_save", "GET", "/venue-saves", "/{venue_save_id}", 200⟩,
  ⟨"update_venue_save", "PATCH", "/venue-saves", "/{venue_save_id}", 200⟩,
  ⟨"delete_venue_save", "DELETE", "/venue-saves", "/{venue_save_id}", 204⟩,
  -- `app/api/v1/notifications.py`
  ⟨"list_notifications", "GET", "/users/me/notifications", "", 200⟩,
  ⟨"get_unread_notification_count", "GET", "/users/me/notifications", "/unread-count", 200⟩,
  ⟨"mark_all_notifications_read", "POST", "/users/me/notifications", "/read-all", 204⟩,
  -- `app/api/v1/reports.py`
  ⟨"report_checkin", "POST", "/checkins", "/{checkin_id}/report", 204⟩,
  ⟨"report_user", "POST", "/users", "/{user_id}/report", 204⟩,
  ⟨"report_venue", "POST", "/venues", "/{venue_id}/report", 204⟩,
  -- `app/api/v1/admin.py`
  ⟨"purge_checkin", "DELETE", "/admin", "/checkins/{checkin_id}", 204⟩,
  ⟨"verify_venue", "POST", "/admin", "/venues/{venue_id}/verify", 200⟩,
  ⟨"close_venue", "POST", "/admin", "/venues/{venue_id}/close", 200⟩,
  ⟨"suspend_venue", "POST", "/admin", "/venues/{venue_id}/suspend", 200⟩,
  ⟨"suspend_user", "POST", "/admin", "/users/{user_id}/suspend", 200⟩,
  ⟨"list_content_reports", "GET", "/admin", "/content-reports", 200⟩,
  ⟨"dismiss_content_report", "POST", "/admin", "/content-reports/{report_id}/dismiss", 200⟩,
  ⟨"action_content_report", "POST", "/admin", "/content-reports/{report_id}/action", 200⟩,
  ⟨"list_venue_reports", "GET", "/admin", "/venue-reports", 200⟩,
  ⟨"dismiss_venue_report", "POST", "/admin", "/venue-reports/{report_id}/dismiss", 200⟩,
  ⟨"action_venue_report", "POST", "/admin", "/venue-reports/{report_id}/action", 200⟩,
  -- `app/api/v1/webhooks.py`
  ⟨"handle_clerk_webhook", "POST", "/webhooks", "/clerk", 200⟩]

/-! ## Templates that share no path -/

/-- A part of a path may fit both segments. -/
def segmentsMeet (s t : List Char) : Bool :=
  s.head? = some '{' || t.head? = some '{' || s = t

/-- Some path may be an instance of both templates. -/
def templatesMeet : List (List Char) → List (List Char) → Bool
  | [], [] => true
  | s :: ss, t :: ts => segmentsMeet s t && templatesMeet ss ts
  | _, _ => false

/-- Two segments that one part fits meet. -/
theorem segmentsMeet_of_fits {s t part : List Char} (hs : Fits s part) (ht : Fits t part) :
    segmentsMeet s t = true := by
  rw [segmentsMeet, Bool.or_eq_true, Bool.or_eq_true, decide_eq_true_eq, decide_eq_true_eq,
    decide_eq_true_eq]
  rcases hs with ⟨-, rfl⟩ | ⟨⟨name, -, -, rfl⟩, -⟩
  · rcases ht with ⟨-, rfl⟩ | ⟨⟨name, -, -, rfl⟩, -⟩
    · exact .inr rfl
    · exact .inl (.inr rfl)
  · exact .inl (.inl rfl)

/-- So do two templates that one path is an instance of. -/
theorem templatesMeet_of_forall₂ {ss ts parts : List (List Char)} (hs : List.Forall₂ Fits ss parts)
    (ht : List.Forall₂ Fits ts parts) : templatesMeet ss ts = true := by
  induction hs generalizing ts with
  | nil =>
    cases ht
    rfl
  | cons hfits _ ih =>
    cases ht with
    | cons hfits' htail =>
      rw [templatesMeet, Bool.and_eq_true]
      exact ⟨segmentsMeet_of_fits hfits hfits', ih htail⟩

/-- Templates that do not meet have no instance in common. -/
theorem templatesMeet_of_isInstance {template template' path : String}
    (h : IsInstance template path) (h' : IsInstance template' path) :
    templatesMeet (template.toList.splitOn '/') (template'.toList.splitOn '/') = true :=
  templatesMeet_of_forall₂ (isInstance_iff.mp h) (isInstance_iff.mp h')

/-- Templates with the same front meet behind it. -/
theorem templatesMeet_of_append {front ss ts : List (List Char)}
    (h : templatesMeet (front ++ ss) (front ++ ts) = true) : templatesMeet ss ts = true := by
  induction front with
  | nil => exact h
  | cons s front ih =>
    rw [List.cons_append, List.cons_append, templatesMeet, Bool.and_eq_true] at h
    exact ih h.2

/-! ### Those of the routes -/

namespace Route

/-- The characters of `path_format`. -/
def chars (r : Route) : List Char := r.router.toList ++ r.path.toList

/-- The characters of a route's path. -/
theorem toList_pathFormat (r : Route) : r.pathFormat.toList = r.chars := String.toList_append

/-- The characters of its template: the prefix, and then the path. -/
theorem toList_template (r : Route) : r.template.toList = apiV1Prefix.toList ++ r.chars := by
  rw [template, String.toList_append, toList_pathFormat]

/-- Two routes of one method whose templates meet. -/
def meets (r r' : Route) : Prop :=
  templatesMeet (r.chars.splitOn '/') (r'.chars.splitOn '/') = true ∧ r.method = r'.method

instance (r r' : Route) : Decidable (r.meets r') := instDecidableAnd

end Route

/-- No two of the routes have a method and a path in common. -/
theorem routes_pairwise : routes.Pairwise fun r r' => ¬ r.meets r' := by
  decide +kernel

/-- Whether templates meet does not depend on their order. -/
theorem templatesMeet_comm (ss ts : List (List Char)) :
    templatesMeet ss ts = templatesMeet ts ss := by
  induction ss generalizing ts with
  | nil => cases ts <;> rfl
  | cons s ss ih =>
    cases ts with
    | nil => rfl
    | cons t ts =>
      rw [templatesMeet, templatesMeet, ih, segmentsMeet, segmentsMeet, Bool.or_comm (decide _),
        decide_eq_decide.mpr (eq_comm (a := s))]

/-- Declared routes that meet are one route. -/
theorem eq_of_meets {r r' : Route} (hr : r ∈ routes) (hr' : r' ∈ routes) (h : r.meets r') :
    r = r' := by
  have hsymm : Std.Symm fun r r' : Route => ¬ r.meets r' :=
    ⟨fun _ _ h h' => h ⟨templatesMeet_comm .. ▸ h'.1, h'.2.symm⟩⟩
  by_contra hne
  exact routes_pairwise.forall hr hr' hne h

/-- The path of a route starts with a slash and does not end with one. -/
theorem head?_getLast?_chars :
    ∀ r ∈ routes, r.chars.head? = some '/' ∧ r.chars.getLast? ≠ some '/' := by
  decide +kernel

/-- Routes of one method with an instance in common meet. -/
theorem meets_of_templatesMeet {r r' : Route} (hr : r ∈ routes) (hr' : r' ∈ routes)
    (hmethod : r.method = r'.method)
    (h : templatesMeet (r.template.toList.splitOn '/') (r'.template.toList.splitOn '/') = true) :
    r.meets r' := by
  obtain ⟨rest, hrest⟩ := List.head?_eq_some_iff.mp (head?_getLast?_chars r hr).1
  obtain ⟨rest', hrest'⟩ := List.head?_eq_some_iff.mp (head?_getLast?_chars r' hr').1
  have hsplit : ∀ l : List Char, ('/' :: l).splitOn '/' = [] :: l.splitOn '/' :=
    List.splitOn_append_cons_self_of_not_mem List.not_mem_nil
  rw [r.toList_template, r'.toList_template, hrest, hrest', List.splitOn_append_cons_self,
    List.splitOn_append_cons_self] at h
  refine ⟨?_, hmethod⟩
  rw [hrest, hrest', hsplit, hsplit, templatesMeet, templatesMeet_of_append h]
  rfl

/-- A path is an instance of one route of a method at most. -/
theorem eq_of_isInstance {r r' : Route} {path : String} (hr : r ∈ routes) (hr' : r' ∈ routes)
    (hmethod : r.method = r'.method) (hpath : IsInstance r.template path)
    (hpath' : IsInstance r'.template path) : r = r' :=
  eq_of_meets hr hr'
    (meets_of_templatesMeet hr hr' hmethod (templatesMeet_of_isInstance hpath hpath'))

/-! ## The router -/

instance (segment : List Char) : Decidable (IsLiteral segment) := instDecidableAnd

instance (segment : List Char) : Decidable (IsParameter segment) :=
  decidable_of_iff _ isParameter_iff.symm

instance (segment part : List Char) : Decidable (Fits segment part) := instDecidableOr

instance (template path : String) : Decidable (IsInstance template path) :=
  decidable_of_iff _ isInstance_iff.symm

/-- The route of a request, where the routes are tried in the order of `rs`. -/
def routeOf (rs : List Route) (method path : String) : Option Route :=
  rs.find? fun r => decide (r.method = method ∧ IsInstance r.template path)

/-- The route that is found has the method, and the path is an instance of its template. -/
theorem routeOf_eq_some {rs : List Route} {method path : String} {r : Route}
    (h : routeOf rs method path = some r) :
    r ∈ rs ∧ r.method = method ∧ IsInstance r.template path := by
  rw [routeOf] at h
  have hfound := List.find?_some h
  exact ⟨List.mem_of_find?_eq_some h, of_decide_eq_true hfound⟩

/-- The order in which the application includes its routers does not matter: in any order of the
declared routes, a request gets the same one, or none in each. -/
theorem routeOf_perm (rs : List Route) (method path : String) (h : rs.Perm routes) :
    routeOf rs method path = routeOf routes method path := by
  cases hroute : routeOf routes method path with
  | none =>
    rw [routeOf, List.find?_eq_none] at hroute ⊢
    exact fun r hr => hroute r (h.mem_iff.mp hr)
  | some r =>
    obtain ⟨hr, hmethod, hpath⟩ := routeOf_eq_some hroute
    cases hother : routeOf rs method path with
    | none =>
      rw [routeOf, List.find?_eq_none] at hother
      exact absurd (decide_eq_true ⟨hmethod, hpath⟩) (hother r (h.mem_iff.mpr hr))
    | some r' =>
      obtain ⟨hr', hmethod', hpath'⟩ := routeOf_eq_some hother
      rw [eq_of_isInstance (h.mem_iff.mp hr') hr (hmethod'.trans hmethod.symm) hpath' hpath]

/-- The table read backwards dispatches the same. -/
theorem routeOf_perm_reverse :
    routeOf routes.reverse "GET" "/api/v1/users/me" =
      routeOf routes "GET" "/api/v1/users/me" :=
  routeOf_perm routes.reverse "GET" "/api/v1/users/me" routes.reverse_perm

/-! ## A slash at the end -/

/-- Only a template that ends in a slash has an instance that does. -/
theorem getLast?_of_isInstance {template path : String} (h : IsInstance template path)
    (hpath : path.toList.getLast? = some '/') : template.toList.getLast? = some '/' := by
  obtain ⟨shorter, hshorter⟩ := List.getLast?_eq_some_iff.mp hpath
  have hsplit : ∀ l : List Char, (l ++ ['/']).splitOn '/' = l.splitOn '/' ++ [[]] := fun l => by
    rw [List.splitOn_append_cons_self, List.splitOn_nil]
  rw [isInstance_iff, hshorter, hsplit, ← List.forall₂_reverse_iff, List.reverse_append] at h
  obtain ⟨last, front, hfits, hfront, hreverse⟩ := List.forall₂_cons_right_iff.mp h
  have hlast : last = [] := by
    rcases hfits with ⟨-, hempty⟩ | ⟨-, hne⟩
    · exact hempty.symm
    · exact absurd rfl hne
  have hne : front.reverse ≠ [] := by
    rw [ne_eq, List.reverse_eq_nil_iff]
    rintro rfl
    have hparts := List.forall₂_nil_left_iff.mp hfront
    exact List.splitOn_ne_nil '/' shorter (List.reverse_eq_nil_iff.mp hparts)
  have hsegments : template.toList.splitOn '/' = front.reverse ++ [[]] := by
    rw [← List.reverse_inj, hreverse, hlast, List.reverse_append, List.reverse_reverse]
    rfl
  have hslash : ∀ segment ∈ front.reverse, '/' ∉ segment := fun segment hsegment =>
    not_mem_of_mem_splitOn (l := template.toList)
      (hsegments ▸ List.mem_append_left _ hsegment)
  have htemplate : template.toList = ['/'].intercalate front.reverse ++ ['/'] := by
    have hjoined : ['/'].intercalate (template.toList.splitOn '/') = template.toList :=
      List.intercalate_splitOn '/'
    rw [← hjoined, hsegments,
      ← List.splitOn_intercalate '/' hslash hne, ← hsplit, List.intercalate_splitOn,
      List.splitOn_intercalate '/' hslash hne]
  rw [htemplate, List.getLast?_concat]

/-- Templates that serve one path meet. -/
theorem templatesMeet_of_serves {template template' path : String}
    (hlast : template.toList.getLast? ≠ some '/') (hlast' : template'.toList.getLast? ≠ some '/')
    (h : Serves template path) (h' : Serves template' path) :
    templatesMeet (template.toList.splitOn '/') (template'.toList.splitOn '/') = true := by
  have hslash : ∀ shorter : String, (shorter ++ "/").toList.getLast? = some '/' := fun shorter => by
    rw [String.toList_append]
    exact List.getLast?_concat
  rcases h with h | ⟨shorter, rfl, h⟩ <;> rcases h' with h' | ⟨shorter', hpath, h'⟩
  · exact templatesMeet_of_isInstance h h'
  · subst hpath
    exact absurd (getLast?_of_isInstance h (hslash shorter')) hlast
  · exact absurd (getLast?_of_isInstance h' (hslash shorter)) hlast'
  · obtain rfl : shorter = shorter' := by
      have htoList := congrArg String.toList hpath
      rw [String.toList_append, String.toList_append] at htoList
      exact String.toList_inj.mp (List.append_cancel_right htoList)
    exact templatesMeet_of_isInstance h h'

/-! ## The rate limiter -/

/-- No template ends in a slash. -/
theorem getLast?_template {r : Route} (hr : r ∈ routes) :
    r.template.toList.getLast? ≠ some '/' := by
  obtain ⟨hhead, hlast⟩ := head?_getLast?_chars r hr
  have hne : r.chars ≠ [] := by
    rintro hnil
    rw [hnil] at hhead
    cases hhead
  rwa [r.toList_template, List.getLast?_append_of_ne_nil _ hne]

/-- The strict routes are declared. -/
theorem exists_route_of_strict :
    ∀ strict ∈ strictRoutes, ∃ r ∈ routes, r.method = strict.1 ∧ r.template = strict.2 := by
  decide +kernel

/-- The rate limiter looks at the path before the router does, and is strict for the strict routes:
a request for a declared route, or for it with a slash at the end, is in the strict tier if its
route is, and else it is not. -/
theorem tierFor_route_iff (r : Route) (request : RateLimit.Request) (hr : r ∈ routes)
    (hmethod : request.method = r.method) (hline : '\n' ∉ request.path.toList)
    (hpath : Serves r.template request.path) :
    tierFor request = .strict ↔ (r.method, r.template) ∈ strictRoutes := by
  rw [tierFor_iff_exists, hmethod]
  constructor
  · rintro ⟨template, hstrict, hmatch⟩
    have hserves := (matchLiterals_iff_serves (isTemplate_strictRoutes _ hstrict) hline).mp hmatch
    obtain ⟨r', hr', hmethod', rfl⟩ := exists_route_of_strict _ hstrict
    have hmeet := templatesMeet_of_serves (getLast?_template hr') (getLast?_template hr) hserves
      hpath
    obtain rfl := eq_of_meets hr' hr (meets_of_templatesMeet hr' hr hmethod' hmeet)
    exact hstrict
  · intro hstrict
    exact ⟨r.template, hstrict,
      (matchLiterals_iff_serves (isTemplate_strictRoutes _ hstrict) hline).mpr hpath⟩

/-- The route of a follow is declared. -/
theorem mem_routes_followUser :
    ⟨"follow_user", "POST", "/users", "/{user_id}/follow", 204⟩ ∈ routes := by
  simp [routes]

/-- So its tier depends on whether its template is listed. -/
theorem tierFor_route_iff_follow :
    tierFor followRequest = .strict ↔
      ("POST", "/api/v1/users/{user_id}/follow") ∈ strictRoutes :=
  tierFor_route_iff ⟨"follow_user", "POST", "/users", "/{user_id}/follow", 204⟩ followRequest
    mem_routes_followUser rfl (by decide) (.inr ⟨"/api/v1/users/7/follow", rfl, by decide⟩)

/-! ## The route in the log -/

end OburBackend
