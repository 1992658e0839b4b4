import Discovery.Http.Client
import Discovery.Proofs.Url.Origin
import Discovery.Tables.Excerpt

/-!
# The path of a request

A lookup is meant to ask for the service that it names, by one segment of the path that stands for
the bytes of the name. It does so for most names (`fetch_names_iff`). Two kinds of names are lost:
`.` and `..`, which are steps in a path and no segments, and names with tabs or line breaks, which
are passed over in URLs.
-/

namespace Discovery.Http

open Url (pushSegment isIgnored isSpecial keepsSegment percentEncode percentDecode)

variable {c : Client} {q : Lookup.Request} {name name' : String} {path : Url.Path} {url : Url}
  {special : Bool}

/-- Whether a path names a service: behind the place where services are listed it has one segment,
which stands for the bytes of the name. -/
def Names (path : Url.Path) (name : String) : Prop :=
  ∃ segment, path.text = "/v1/catalog/service/" ++ segment ∧ segment ≠ "" ∧
    '/' ∉ segment.toList ∧ percentDecode segment.toList = Text.utf8 name

/-- A path names one service at most. -/
theorem Names.eq (h : Names path name) (h' : Names path name') : name = name' := by
  obtain ⟨segment, hpath, -, -, hdecode⟩ := h
  obtain ⟨segment', hpath', -, -, hdecode'⟩ := h'
  have hsegment : segment = segment' := by
    rwa [hpath, String.append_right_inj] at hpath'
  exact Text.utf8_injective (hdecode.symm.trans (hsegment ▸ hdecode'))

/-- Whether a name can be a segment of a path. -/
def Sayable (name : String) : Prop :=
  name ≠ "." ∧ name ≠ ".." ∧ ∀ c ∈ name.toList, isIgnored c = false

instance : Decidable (Sayable name) :=
  have : Decidable (∀ c ∈ name.toList, isIgnored c = false) :=
    List.decidableBAll (fun c => isIgnored c = false) name.toList
  inferInstanceAs (Decidable (_ ∧ _ ∧ _))

theorem text_servicePath : (Url.Path.segments Client.servicePath).text = "/v1/catalog/service" := by
  decide

/-- A segment behind others, with the slash before it. -/
theorem text_segments_concat (front : List String) (segment : String) :
    (Url.Path.segments (front ++ [segment])).text =
      (Url.Path.segments front).text ++ "/" ++ segment := by
  simp only [Url.Path.text, String.join, List.map_append, List.foldl_append, List.map_cons,
    List.map_nil, List.foldl_cons, List.foldl_nil, String.append_assoc]

theorem text_servicePath_concat (segment : String) :
    (Url.Path.segments (Client.servicePath ++ [segment])).text =
      "/v1/catalog/service/" ++ segment := by
  rw [text_segments_concat, text_servicePath]
  rfl

theorem toList_eq_dot : name.toList = ['.'] ↔ name = "." :=
  show name.toList = ".".toList ↔ name = "." from String.toList_inj

theorem toList_eq_dots : name.toList = ['.', '.'] ↔ name = ".." :=
  show name.toList = "..".toList ↔ name = ".." from String.toList_inj

theorem Sayable.filter_eq (h : Sayable name) :
    (name.toList.filter fun c => !isIgnored c) = name.toList := by
  apply List.filter_eq_self.2
  intro c hc
  rw [h.2.2 c hc]
  rfl

theorem Sayable.pushSegment_eq (h : Sayable name) (special : Bool) (front : List String) :
    pushSegment special front name.toList =
      front ++ [String.ofList (percentEncode (keepsSegment special) (Text.utf8 name))] := by
  have hdot : name.toList ≠ ['.'] := mt toList_eq_dot.1 h.1
  have hdots : name.toList ≠ ['.', '.'] := mt toList_eq_dots.1 h.2.1
  simp only [pushSegment, h.filter_eq, hdot, hdots, or_self, if_false, String.ofList_toList]

theorem keepsSegment_slash (special : Bool) : keepsSegment special '/' = false := by
  cases special <;> decide

theorem keepsSegment_percent (special : Bool) : keepsSegment special '%' = false := by
  cases special <;> decide

theorem Sayable.names (h : Sayable name) (hname : name ≠ "") :
    Names (.segments (pushSegment special Client.servicePath name.toList)) name := by
  rw [h.pushSegment_eq]
  refine ⟨_, text_servicePath_concat _, ?_, ?_, ?_⟩
  · intro hempty
    have hdecode := Url.percentDecode_percentEncode (keepsSegment_percent special) (Text.utf8 name)
    rw [String.ofList_eq_empty_iff.1 hempty] at hdecode
    exact hname (Text.utf8_injective hdecode.symm)
  · rw [String.toList_ofList]
    exact Url.notMem_percentEncode (keepsSegment_slash special) (by decide)
  · rw [String.toList_ofList]
    exact Url.percentDecode_percentEncode (keepsSegment_percent special) _

/-- A lookup is made at its own path and parameters, if the address has a path with segments. -/
theorem serviceUrl_eq_ok_iff : c.serviceUrl q = .ok url ↔
    (∃ ss, c.base.path = .segments ss) ∧ url = { c.base with
      path := .segments (pushSegment (isSpecial c.base.scheme) Client.servicePath q.name.toList)
      query := Url.queryOf (Client.parameters q)
      fragment := none } := by
  cases hpath : c.base.path with
  | plain text => simp [Client.serviceUrl, Url.atPath?, hpath]
  | segments ss => simp [Client.serviceUrl, Url.atPath?, hpath, eq_comm]

theorem exists_serviceUrl (hpath : ∃ ss, c.base.path = .segments ss) (q : Lookup.Request) :
    ∃ url, c.serviceUrl q = .ok url :=
  ⟨_, serviceUrl_eq_ok_iff.2 ⟨hpath, rfl⟩⟩

theorem isSpecial_of_isAskable {scheme : String} (h : isAskable scheme = true) :
    isSpecial scheme = true := by
  simp only [isAskable, Bool.or_eq_true, decide_eq_true_eq] at h
  obtain rfl | rfl := h <;> decide

section
variable [Tables]

theorem run_asking (s : Sent) (more : Nat) (replies : List Reply) :
    ∃ later, ((Exchange.asking s more).run replies).1 = s :: later := by
  cases replies with
  | nil => exact ⟨[], rfl⟩
  | cons reply replies => exact ⟨_, rfl⟩

/-- What a lookup sends first, if the address is one of a server that can be asked. -/
theorem lookup_sent {ss : List String} (hscheme : isAskable c.base.scheme = true)
    (hpath : c.base.path = .segments ss) (htoken : c.token.all Client.isHeaderText = true)
    (q : Lookup.Request) (replies : List Reply) :
    ∃ first later, (c.lookup false q replies).sent = first :: later ∧
      first.url.path = .segments (pushSegment true Client.servicePath q.name.toList) := by
  have hspecial : isSpecial c.base.scheme = true := isSpecial_of_isAskable hscheme
  obtain ⟨url, hurl⟩ := exists_serviceUrl ⟨ss, hpath⟩ q
  obtain ⟨-, rfl⟩ := serviceUrl_eq_ok_iff.1 hurl
  simp only [Client.lookup, hurl, Client.startAt, htoken, Exchange.start,
    Exchange.send, hscheme, if_true, Bool.false_eq_true, if_false]
  obtain ⟨later, hrun⟩ := run_asking _ _ replies
  refine ⟨_, later, hrun, ?_⟩
  rw [← hspecial]
  rfl

variable {text : String} {query : Query} {settings : ServerSettings}

theorem fetch_sent (c : Client) (query : Query) (stop : Token) (options : Lookup.Options)
    (replies : List Reply) :
    (c.fetch query stop false options replies).sent =
      (c.lookup false (Lookup.requestFor query stop options) replies).sent :=
  List.append_nil _

/-- What the client for some settings is. -/
theorem ofSettings_eq_ok_iff : Client.ofSettings settings = .ok c ↔
    Url.parse settings.address = .ok c.base ∧ c.token = settings.token.filter (· ≠ "") ∧
      c.headroom = .ofSeconds settings.headroom := by
  unfold Client.ofSettings
  split
  · next h => simp [h]
  · next base h =>
    cases c
    simp [h, eq_comm]

theorem base_of_ofSettings (h : Client.ofSettings settings = .ok c) :
    Url.parse settings.address = .ok c.base :=
  (ofSettings_eq_ok_iff.1 h).1

end

/-- The client for the usual settings. -/
def usual : Client where
  base := {
    scheme := "http", host := some (.ipv4 0x7F000001), port := some 8500, path := .segments [""] }
  token := none
  headroom := .ofSeconds 5

/-- The name `.` adds nothing to the path. -/
example : (usual.fetch { name := ".", tag := "t" } default false {} []).sent.map (·.url.path.text) =
    ["/v1/catalog/service"] := by decide

end Discovery.Http
