import SafeSend.Lib.Dict
import SafeSend.Urls
/-!
# The database's address

A connection string is libpq's; what the driver is given says the same in the driver's words.
-/
namespace SafeSend
namespace DatabaseUrl

open Lib
open Urls (SplitResult urlsplit urlunsplit urlencode parseQsl)

def PREFIXES : List String := ["postgres://", "postgresql://"]

def DRIVER : String := "postgresql+asyncpg://"

/-- The first of the prefixes the address starts with gives way to the driver's. -/
def withDriver (url : List Char) : List Char :=
  match PREFIXES.find? fun p => p.toList.isPrefixOf url with
  | some p => DRIVER.toList ++ url.drop p.toList.length
  | none => url

/-- `sslmode` becomes `ssl` where there is a value for it and `ssl` is not given. -/
def renamed (params : List (String × String)) : List (String × String) :=
  let rest := Dict.pop "sslmode" params
  match Dict.get "sslmode" params with
  | some sslmode => if sslmode ≠ "" ∧ Dict.get "ssl" rest = none then Dict.set "ssl" sslmode rest else rest
  | none => rest

def driverParams (params : List (String × String)) : List (String × String) :=
  Dict.set "prepared_statement_cache_size" "0" (Dict.pop "channel_binding" (renamed params))

def paramsOf (parts : SplitResult) : List (String × String) := Dict.ofItems (parseQsl parts.query)

def replaced (parts : SplitResult) : SplitResult := { parts with query := urlencode (driverParams (paramsOf parts)) }

/-- `Settings.sqlalchemy_url`; nothing where the address is refused. -/
def sqlalchemyUrl (accepts : List Char → Bool) (databaseUrl : List Char) : Option (List Char) :=
  (urlsplit accepts (withDriver databaseUrl)).map fun parts => urlunsplit (replaced parts)

/-! ## The parameters -/

variable {params : List (String × String)} {k : String}

theorem nodup_renamed (h : (params.map Prod.fst).Nodup) : ((renamed params).map Prod.fst).Nodup := by
  unfold renamed
  dsimp only
  split
  next =>
    split
    next => exact Dict.nodup_set (Dict.nodup_pop h _) _ _
    next => exact Dict.nodup_pop h _
  next => exact Dict.nodup_pop h _

theorem get_renamed_of_ne (h₁ : k ≠ "sslmode") (h₂ : k ≠ "ssl") : Dict.get k (renamed params) = Dict.get k params := by
  unfold renamed
  dsimp only
  split
  next =>
    split
    next => exact (Dict.get_set_of_ne h₂ _ _).trans (Dict.get_pop_of_ne h₁ _)
    next => exact Dict.get_pop_of_ne h₁ _
  next => exact Dict.get_pop_of_ne h₁ _

theorem get_renamed_sslmode : Dict.get "sslmode" (renamed params) = none := by
  unfold renamed
  dsimp only
  split
  next =>
    split
    next => exact (Dict.get_set_of_ne (by decide) _ _).trans (Dict.get_pop_self _ _)
    next => exact Dict.get_pop_self _ _
  next => exact Dict.get_pop_self _ _

theorem get_renamed_ssl : Dict.get "ssl" (renamed params) =
    (Dict.get "ssl" params).or ((Dict.get "sslmode" params).filter (· ≠ "")) := by
  have hrest : Dict.get "ssl" (Dict.pop "sslmode" params) = Dict.get "ssl" params := Dict.get_pop_of_ne (by decide) _
  unfold renamed
  dsimp only
  rw [hrest]
  split
  next sslmode hmode =>
    rw [hmode]
    split
    next h =>
      rw [Dict.get_set_self, h.2, Option.none_or, Option.filter_some, if_pos (decide_eq_true h.1)]
    next h =>
      rw [hrest]
      by_cases hempty : sslmode = ""
      · rw [Option.filter_some, if_neg (by simp [hempty]), Option.or_none]
      · obtain ⟨ssl, hssl⟩ := Option.ne_none_iff_exists'.1 fun hnone => h ⟨hempty, hnone⟩
        rw [hssl, Option.some_or]
  next hmode => rw [hrest, hmode, Option.filter_none, Option.or_none]

/-- **What the driver is told, of what libpq would have been told.** -/
structure Translated (params params' : List (String × String)) : Prop where
  sslmode : Dict.get "sslmode" params' = none
  channelBinding : Dict.get "channel_binding" params' = none
  cache : Dict.get "prepared_statement_cache_size" params' = some "0"
  ssl : Dict.get "ssl" params' = (Dict.get "ssl" params).or ((Dict.get "sslmode" params).filter (· ≠ ""))
  rest : ∀ k, k ∉ ["sslmode", "channel_binding", "prepared_statement_cache_size", "ssl"] →
    Dict.get k params' = Dict.get k params

theorem nodup_driverParams (h : (params.map Prod.fst).Nodup) : ((driverParams params).map Prod.fst).Nodup :=
  Dict.nodup_set (Dict.nodup_pop (nodup_renamed h) _) _ _

theorem translated (params : List (String × String)) : Translated params (driverParams params) := by
  unfold driverParams
  refine ⟨?_, ?_, Dict.get_set_self _ _ _, ?_, fun k hk => ?_⟩
  · rw [Dict.get_set_of_ne (by decide), Dict.get_pop_of_ne (by decide), get_renamed_sslmode]
  · rw [Dict.get_set_of_ne (by decide), Dict.get_pop_self]
  · rw [Dict.get_set_of_ne (by decide), Dict.get_pop_of_ne (by decide), get_renamed_ssl]
  · simp only [List.mem_cons, List.not_mem_nil, or_false, not_or] at hk
    rw [Dict.get_set_of_ne hk.2.2.1, Dict.get_pop_of_ne hk.2.1, get_renamed_of_ne hk.1 hk.2.2.2]

/-- Parameters that are the driver's already stay as they are. -/
theorem driverParams_of_get (hd : (params.map Prod.fst).Nodup) (h : Translated params params) : driverParams params = params := by
  have hrenamed : renamed params = params := by
    unfold renamed
    rw [h.sslmode]
    exact Dict.pop_of_get h.sslmode
  unfold driverParams
  rw [hrenamed, Dict.pop_of_get h.channelBinding, Dict.set_of_get hd h.cache]

theorem driverParams_twice (hd : (params.map Prod.fst).Nodup) : driverParams (driverParams params) = driverParams params := by
  have h := translated params
  refine driverParams_of_get (nodup_driverParams hd) ⟨h.sslmode, h.channelBinding, h.cache, ?_, fun _ _ => rfl⟩
  rw [h.sslmode, Option.filter_none, Option.or_none]

/-! ## The address -/

variable {accepts : List Char → Bool} {url : List Char} {parts : SplitResult}

theorem nodup_paramsOf (parts : SplitResult) : ((paramsOf parts).map Prod.fst).Nodup := Dict.nodup_ofItems _

theorem paramsOf_query (parts : SplitResult) (params : List (String × String)) (h : (params.map Prod.fst).Nodup) :
    paramsOf { parts with query := urlencode params } = params := by
  unfold paramsOf
  rw [Urls.parseQsl_urlencode, Dict.ofItems_of_nodup h]

theorem paramsOf_replaced (parts : SplitResult) : paramsOf (replaced parts) = driverParams (paramsOf parts) :=
  paramsOf_query parts _ (nodup_driverParams (nodup_paramsOf parts))

theorem replaced_twice (parts : SplitResult) : replaced (replaced parts) = replaced parts := by
  unfold replaced
  rw [paramsOf_query parts _ (nodup_driverParams (nodup_paramsOf parts)), driverParams_twice (nodup_paramsOf parts)]

theorem replaced_others (parts : SplitResult) : (replaced parts).netloc = parts.netloc ∧
    (replaced parts).path = parts.path ∧ (replaced parts).fragment = parts.fragment ∧
      (replaced parts).scheme = parts.scheme := by
  unfold replaced
  exact ⟨rfl, rfl, rfl, rfl⟩

theorem parts_replaced (h : Urls.Parts parts) : Urls.Parts (replaced parts) :=
  h.withQuery (Urlencoded.encode_safe _)

/-- One of the prefixes is on the address. -/
def libpq (url : List Char) : Bool := PREFIXES.any fun p => p.toList.isPrefixOf url

theorem withDriver_of_not (h : libpq url = false) : withDriver url = url := by
  have hnone : (PREFIXES.find? fun p => p.toList.isPrefixOf url) = none :=
    List.find?_eq_none.2 fun p hp hpre => Bool.false_ne_true (h ▸ List.any_eq_true.2 ⟨p, hp, hpre⟩)
  unfold withDriver
  rw [hnone]

def LIBPQ : List (List Char) := ["postgres".toList, "postgresql".toList]

theorem prefix_scheme : ∀ p ∈ PREFIXES, ∃ s ∈ LIBPQ, p.toList = s ++ [':', '/', '/'] ∧ Urls.isScheme s = true ∧ ':' ∉ s := by
  decide

theorem withDriver_of_libpq (h : libpq url = true) : ∃ s rest, Urls.isScheme s = true ∧
    url = s ++ ':' :: '/' :: '/' :: rest ∧ withDriver url = "postgresql+asyncpg".toList ++ ':' :: '/' :: '/' :: rest := by
  obtain ⟨p, hp⟩ := Option.isSome_iff_exists.1 (List.find?_isSome.2 (List.any_eq_true.1 h))
  obtain ⟨rest, hurl⟩ := List.isPrefixOf_iff_prefix.1 (List.find?_some (p := fun p : String => p.toList.isPrefixOf url) hp)
  obtain ⟨s, -, hs, hscheme, -⟩ := prefix_scheme p (List.mem_of_find?_eq_some hp)
  refine ⟨s, rest, hscheme, ?_, ?_⟩
  · rw [← hurl, hs, List.append_assoc]
    rfl
  · unfold withDriver
    have hdriver : DRIVER.toList = "postgresql+asyncpg".toList ++ [':', '/', '/'] := by decide
    rw [hp, ← hurl]
    dsimp only
    rw [List.drop_left, hdriver, List.append_assoc]
    rfl

/-- **The driver's prefix changes the scheme, and nothing else the address says.** -/
theorem urlsplit_withDriver (accepts : List Char → Bool) (url : List Char) : urlsplit accepts (withDriver url) =
    (urlsplit accepts url).map fun p => { p with scheme := if libpq url then "postgresql+asyncpg".toList else p.scheme } := by
  cases h : libpq url with
  | false =>
    rw [withDriver_of_not h]
    cases urlsplit accepts url with
    | none => rfl
    | some p => rfl
  | true =>
    obtain ⟨s, rest, hscheme, hurl, hdriver⟩ := withDriver_of_libpq h
    rw [hdriver, hurl]
    exact Urls.urlsplit_rescheme (by decide) hscheme _

theorem withDriver_urlunsplit (h : Urls.Parts parts) (hn : parts.netloc ≠ [])
    (hscheme : parts.scheme ∉ LIBPQ) : withDriver (urlunsplit parts) = urlunsplit parts := by
  refine withDriver_of_not (Bool.eq_false_iff.2 fun hpre => hscheme ?_)
  obtain ⟨p, hp, hpre⟩ := List.any_eq_true.1 hpre
  obtain ⟨s, hlibpq, hs, hsc, hcolon⟩ := prefix_scheme p hp
  obtain ⟨t, ht⟩ := List.isPrefixOf_iff_prefix.1 hpre
  rw [hs, List.append_assoc, Urls.urlunsplit_eq h hn] at ht
  have hbefore : ∀ l : List Char, ':' ∉ l → ∀ c ∈ l, (c ≠ ':' : Bool) = true := fun l hl c hc =>
    decide_eq_true fun he => hl (he ▸ hc)
  -- what stands before the first colon
  have hfirst := congrArg (List.takeWhile fun c => (c ≠ ':' : Bool)) ht
  rcases h.scheme with hempty | ⟨hscheme, -⟩
  · rw [hempty] at ht
    cases s with
    | nil => cases hsc
    | cons c s =>
      have hslash : c = '/' := (List.cons.inj ht).1
      rw [hslash] at hsc
      cases (Bool.and_eq_true_iff.1 hsc).1
  · have hcolon' : ':' ∉ parts.scheme := fun hmem => (Urls.schemeChar_plain (Urls.isScheme_chars hscheme _ hmem)).1.1 rfl
    have hne : parts.scheme ≠ [] := fun hempty => by
      rw [hempty] at hscheme
      cases hscheme
    rw [List.isEmpty_eq_false_iff.2 hne, if_neg Bool.false_ne_true, List.append_assoc,
      List.takeWhile_append_of_pos (hbefore _ hcolon), List.takeWhile_append_of_pos (hbefore _ hcolon'),
      List.cons_append, List.singleton_append, List.takeWhile_cons_of_neg (by simp), List.takeWhile_cons_of_neg (by simp),
      List.append_nil, List.append_nil] at hfirst
    exact hfirst ▸ hlibpq

/-! ## The whole -/

/-- **The driver is sent where libpq would have been, and told the same.** -/
theorem address_translated (h : urlsplit accepts url = some parts) (hn : parts.netloc ≠ []) :
    ∃ url' parts', sqlalchemyUrl accepts url = some url' ∧ urlsplit accepts url' = some parts' ∧
      (parts'.netloc = parts.netloc ∧ parts'.path = parts.path ∧ parts'.fragment = parts.fragment) ∧
      parts'.scheme = (if libpq url then "postgresql+asyncpg".toList else parts.scheme) ∧
      Translated (paramsOf parts) (paramsOf parts') ∧
      (parts'.scheme ∉ LIBPQ → sqlalchemyUrl accepts url' = some url') := by
  have hdriver := urlsplit_withDriver accepts url
  rw [h, Option.map_some] at hdriver
  generalize hscheme : (if libpq url then "postgresql+asyncpg".toList else parts.scheme) = scheme at hdriver
  generalize hgiven : SplitResult.mk scheme parts.netloc parts.path parts.query parts.fragment = given at hdriver
  obtain ⟨hnetloc, hpath, hquery, hfragment, hscheme'⟩ : given.netloc = parts.netloc ∧ given.path = parts.path ∧
      given.query = parts.query ∧ given.fragment = parts.fragment ∧ given.scheme = scheme := by
    rw [← hgiven]
    exact ⟨rfl, rfl, rfl, rfl, rfl⟩
  obtain ⟨hparts, hok⟩ := Urls.urlsplit_parts hdriver
  obtain ⟨hrn, hrp, hrf, hrs⟩ := replaced_others given
  have hnew : sqlalchemyUrl accepts url = some (urlunsplit (replaced given)) := by
    unfold sqlalchemyUrl
    rw [hdriver, Option.map_some]
  have hhost : (replaced given).netloc ≠ [] := by rwa [hrn, hnetloc]
  have hsplit : urlsplit accepts (urlunsplit (replaced given)) = some (replaced given) :=
    Urls.urlsplit_urlunsplit (parts_replaced hparts) hhost (by rw [hrn]; exact hok)
  refine ⟨_, replaced given, hnew, hsplit, ⟨hrn.trans hnetloc, hrp.trans hpath, hrf.trans hfragment⟩,
    hrs.trans hscheme', ?_, fun hother => ?_⟩
  · have hparams : paramsOf given = paramsOf parts := by
      unfold paramsOf
      rw [hquery]
    rw [paramsOf_replaced, hparams]
    exact translated _
  · unfold sqlalchemyUrl
    rw [withDriver_urlunsplit (parts_replaced hparts) hhost hother, hsplit, Option.map_some, replaced_twice]

theorem address_translated_neon : ∃ url' parts',
    sqlalchemyUrl (fun _ => true) "postgresql://u:p%3Fa@h/db?sslmode=require&channel_binding=require".toList = some url' ∧
      urlsplit (fun _ => true) url' = some parts' ∧
      (parts'.netloc = "u:p%3Fa@h".toList ∧ parts'.path = "/db".toList ∧ parts'.fragment = []) ∧
      parts'.scheme = "postgresql+asyncpg".toList ∧
      Translated [("sslmode", "require"), ("channel_binding", "require")] (paramsOf parts') ∧
      (parts'.scheme ∉ LIBPQ → sqlalchemyUrl (fun _ => true) url' = some url') := by
  have hsplit : urlsplit (fun _ => true) "postgresql://u:p%3Fa@h/db?sslmode=require&channel_binding=require".toList =
      some ⟨"postgresql".toList, "u:p%3Fa@h".toList, "/db".toList, "sslmode=require&channel_binding=require".toList, []⟩ := by
    decide +kernel
  have hparams : paramsOf ⟨"postgresql".toList, "u:p%3Fa@h".toList, "/db".toList,
      "sslmode=require&channel_binding=require".toList, []⟩ = [("sslmode", "require"), ("channel_binding", "require")] := by
    decide +kernel
  exact hparams ▸ address_translated hsplit (by decide)

end DatabaseUrl
end SafeSend
