import MicroserviceFramework.Config.Refinement

/-!
# The key of a request

A configuration is stored under an address and a port. Each handler makes them of the fields of its
request in its own way: an upload and a download fill in the address of the client, a deletion does
not, and an upload does not look at the port.
-/

namespace MicroserviceFramework.Config

open Library.Wire Platform CMsgType
open Auth (cstr)

namespace CConfigHandle

variable [Protobuf] (clientIp : String) (msg : List UInt8)

/-- All uploads with this body go under the key, or are refused if there is none. -/
def UploadsUnder : Option Key → Prop
  | none => ∀ collation o dao, uploadConfig collation o clientIp msg dao =
      (dao, some (sendMsg MSG_UPLOAD_CONFIG_RES ⟨.ERROR, Kind.utf8 "insert to db failed!"⟩))
  | some key => ∀ collation o dao,
      (∀ row ∈ (uploadConfig collation o clientIp msg dao).1.rows,
        row ∈ dao.rows ∨ (row.service_ip, row.service_port) = key) ∧
      (dao.mysql → o.update → o.insert → (uploadConfig collation o clientIp msg dao).2 =
        some (sendMsg MSG_UPLOAD_CONFIG_RES ⟨.OK, Kind.utf8 "OK"⟩))

/-- All downloads with this body are for the key, or are answered with nothing. -/
def DownloadsUnder : Option Key → Prop
  | none => ∀ collation o dao, downloadConfig collation o clientIp msg dao =
      some (sendMsg MSG_DOWNLOAD_CONFIG_RES {})
  | some key => ConfigDAO.InRange key.1 key.2 ∧ ∀ collation o dao,
      downloadConfig collation o clientIp msg dao =
        some (sendMsg MSG_DOWNLOAD_CONFIG_RES (dao.downloadConfig collation o key.1 key.2))

/-- All deletions with this body are for the key, or are refused. -/
def DeletesUnder : Option Key → Prop
  | none => ∀ collation o dao, deleteConfig collation o msg dao =
      (dao, some (sendMsg MSG_DOWNLOAD_CONFIG_RES
        ⟨.ERROR, Kind.utf8 "ConfigDAO::get()->deleteConfig failed!"⟩))
  | some key => ConfigDAO.InRange key.1 key.2 ∧ ∀ collation o dao,
      (deleteConfig collation o msg dao).1 = (dao.deleteConfig collation o key.1 key.2).2 ∧
      (dao.mysql → o.delete → (deleteConfig collation o msg dao).2 =
        some (sendMsg MSG_DELETE_CONFIG_RES ⟨.OK, Kind.utf8 "OK"⟩))

/-- The three handlers are for one key. -/
def KeysAgree (upload download : List UInt8) : Prop :=
  ∃ key, UploadsUnder clientIp upload key ∧ DownloadsUnder clientIp download key ∧
    DeletesUnder download key

/-- The key that a row of an upload has. -/
def uploadKey (ip : String) (port : Int32) : Option Key :=
  let ip := fillIp clientIp ip
  if ip = "" then none else some (cstr ip, port)

/-- The key that a download selects. -/
def downloadKey (ip : String) (port : Int32) : Option Key :=
  let ip := cstr (fillIp clientIp ip)
  if ConfigDAO.InRange ip port then some (ip, port) else none

end CConfigHandle

/-! ## The operations of the table -/

namespace ConfigDAO

variable (collation : Collation) (o : Outcome) {conf : CConfig} {ip : String} {port : Int32}
  (dao : ConfigDAO)

theorem uploadConfig_unaddressed (unaddressed : conf.serviceIp = "") :
    dao.uploadConfig collation o conf = (false, dao) := by
  unfold uploadConfig
  rw [if_pos unaddressed, ite_self]

/-- A row that was not there is the one of the configuration. -/
theorem uploadConfig_rows {row : ConfigRow}
    (mem : row ∈ (dao.uploadConfig collation o conf).2.rows) :
    row ∈ dao.rows ∨ row = .ofConfig conf := by
  unfold uploadConfig updateBin insertBin at mem
  grind

theorem uploadConfig_ok (mysql : dao.mysql) (addressed : conf.serviceIp ≠ "") (update : o.update)
    (insert : o.insert) : (dao.uploadConfig collation o conf).1 = true := by
  unfold uploadConfig updateBin insertBin
  grind

/-- The first upload. -/
theorem uploadConfig_init (addressed : conf.serviceIp ≠ "") :
    (ConfigDAO.uploadConfig collation {} conf {}).2.rows = [.ofConfig conf] := by
  simp [uploadConfig, addressed, getResult, insertBin]

theorem downloadConfig_refused [Protobuf] (refused : ¬InRange ip port) :
    dao.downloadConfig collation o ip port = {} := by
  simp [downloadConfig, refused]

/-- From an empty table comes the key. -/
theorem downloadConfig_init [Protobuf] (accepted : InRange ip port) :
    ConfigDAO.downloadConfig collation o ip port {} = { serviceIp := ip, servicePort := port } := by
  simp [downloadConfig, accepted, getResult]

theorem deleteConfig_refused (refused : ¬InRange ip port) :
    dao.deleteConfig collation o ip port = (false, dao) := by
  simp [deleteConfig, refused]

theorem deleteConfig_ok (mysql : dao.mysql) (accepted : InRange ip port) (delete : o.delete) :
    (dao.deleteConfig collation o ip port).1 = true := by
  simp [deleteConfig, mysql, accepted, delete]

end ConfigDAO

namespace CConfigHandle

section

variable [Protobuf] {clientIp : String} {msg upload download : List UInt8} {conf : CConfig}
  {req : CDownloadconfigReq}

theorem uploadConfig_parsed (clientIp : String) (parsed : Message.parse msg = (true, conf))
    (collation : Collation) (o : Outcome) (dao : ConfigDAO) :
    let stored := dao.uploadConfig collation o
      { conf with serviceIp := fillIp clientIp conf.serviceIp }
    uploadConfig collation o clientIp msg dao = (stored.2, some (sendMsg MSG_UPLOAD_CONFIG_RES
      (if stored.1 then ⟨.OK, Kind.utf8 "OK"⟩ else ⟨.ERROR, Kind.utf8 "insert to db failed!"⟩))) := by
  unfold uploadConfig
  rw [parsed]
  dsimp only
  split
  next dao' stored => rw [stored]; rfl
  next dao' stored => rw [stored]; rfl

/-- An upload without any address. -/
theorem uploadConfig_refused (parsed : Message.parse msg = (true, conf))
    (unaddressed : fillIp clientIp conf.serviceIp = "") (collation : Collation) (o : Outcome)
    (dao : ConfigDAO) : uploadConfig collation o clientIp msg dao =
      (dao, some (sendMsg MSG_UPLOAD_CONFIG_RES ⟨.ERROR, Kind.utf8 "insert to db failed!"⟩)) := by
  rw [uploadConfig_parsed clientIp parsed, ConfigDAO.uploadConfig_unaddressed]
  · rfl
  · exact unaddressed

theorem uploadConfig_accepted (parsed : Message.parse msg = (true, conf))
    (addressed : fillIp clientIp conf.serviceIp ≠ "") (collation : Collation) {o : Outcome}
    {dao : ConfigDAO} (mysql : dao.mysql) (update : o.update) (insert : o.insert) :
    (uploadConfig collation o clientIp msg dao).2 =
      some (sendMsg MSG_UPLOAD_CONFIG_RES ⟨.OK, Kind.utf8 "OK"⟩) := by
  rw [uploadConfig_parsed clientIp parsed]
  dsimp only
  rw [ConfigDAO.uploadConfig_ok collation o dao mysql addressed update insert]
  rfl

/-- The row that the first upload stores says which key it is for. -/
theorem UploadsUnder.key_eq {key : Key} (under : UploadsUnder clientIp msg (some key))
    (parsed : Message.parse msg = (true, conf)) (addressed : fillIp clientIp conf.serviceIp ≠ "") :
    key = (cstr (fillIp clientIp conf.serviceIp), conf.servicePort) := by
  let row : ConfigRow := .ofConfig { conf with serviceIp := fillIp clientIp conf.serviceIp }
  have stored : row ∈ (uploadConfig .exact {} clientIp msg {}).1.rows := by
    rw [uploadConfig_parsed clientIp parsed]
    dsimp only
    rw [ConfigDAO.uploadConfig_init .exact addressed]
    exact List.mem_singleton_self row
  rcases (under .exact {} {}).1 row stored with old | new
  · cases old
  · exact new.symm

/-- An upload is for one key, which its fields and the address of the client make. -/
theorem uploadsUnder_iff (parsed : Message.parse msg = (true, conf)) (key : Option Key) :
    UploadsUnder clientIp msg key ↔ key = uploadKey clientIp conf.serviceIp conf.servicePort := by
  by_cases unaddressed : fillIp clientIp conf.serviceIp = ""
  · have none_there : uploadKey clientIp conf.serviceIp conf.servicePort = none := by
      simp [uploadKey, unaddressed]
    have refused := uploadConfig_refused parsed unaddressed
    rw [none_there]
    constructor
    · intro under
      cases key with
      | none => rfl
      | some key =>
        have ok := (under .exact {} {}).2 rfl rfl rfl
        rw [refused] at ok
        exact absurd ok (by simp [sendMsg])
    · rintro rfl
      exact refused
  · have there : uploadKey clientIp conf.serviceIp conf.servicePort =
        some (cstr (fillIp clientIp conf.serviceIp), conf.servicePort) := by
      simp [uploadKey, unaddressed]
    rw [there]
    constructor
    · intro under
      cases key with
      | none =>
        have ok : (uploadConfig .exact {} clientIp msg {}).2 = _ :=
          uploadConfig_accepted parsed unaddressed .exact rfl rfl rfl
        rw [under .exact {} {}] at ok
        exact absurd ok (by simp [sendMsg])
      | some key => exact congrArg some (under.key_eq parsed unaddressed)
    · rintro rfl collation o dao
      refine ⟨fun row mem => ?_, uploadConfig_accepted parsed unaddressed collation⟩
      rw [uploadConfig_parsed clientIp parsed] at mem
      rcases dao.uploadConfig_rows collation o mem with old | rfl
      · exact .inl old
      · exact .inr rfl

theorem downloadConfig_parsed (clientIp : String) (parsed : Message.parse msg = (true, req))
    (collation : Collation) (o : Outcome) (dao : ConfigDAO) :
    downloadConfig collation o clientIp msg dao = some (sendMsg MSG_DOWNLOAD_CONFIG_RES
      (dao.downloadConfig collation o (cstr (fillIp clientIp req.serviceIp)) req.servicePort)) := by
  unfold downloadConfig
  rw [parsed]

theorem downloadsUnder_iff (parsed : Message.parse msg = (true, req)) (key : Option Key) :
    DownloadsUnder clientIp msg key ↔ key = downloadKey clientIp req.serviceIp req.servicePort := by
  have handled := downloadConfig_parsed clientIp parsed
  by_cases accepted : ConfigDAO.InRange (cstr (fillIp clientIp req.serviceIp)) req.servicePort
  · have there : downloadKey clientIp req.serviceIp req.servicePort =
        some (cstr (fillIp clientIp req.serviceIp), req.servicePort) := by
      simp [downloadKey, accepted]
    have from_empty := handled .exact {} {}
    rw [ConfigDAO.downloadConfig_init .exact {} accepted] at from_empty
    rw [there]
    constructor
    · intro under
      cases key with
      | none =>
        have answer := Option.some.inj ((under .exact {} {}).symm.trans from_empty)
        exact absurd (congrArg (·.2.serviceIp) answer).symm accepted.1
      | some key =>
        have answer := (under.2 .exact {} {}).symm.trans from_empty
        rw [ConfigDAO.downloadConfig_init .exact {} under.1, Option.some.injEq] at answer
        have ip : key.1 = _ := congrArg (·.2.serviceIp) answer
        have port : key.2 = _ := congrArg (·.2.servicePort) answer
        exact congrArg some (Prod.ext ip port)
    · rintro rfl
      exact ⟨accepted, handled⟩
  · have none_there : downloadKey clientIp req.serviceIp req.servicePort = none := by
      simp [downloadKey, accepted]
    rw [none_there]
    constructor
    · intro under
      cases key with
      | none => rfl
      | some key =>
        have answer := (under.2 .exact {} {}).symm.trans (handled .exact {} {})
        rw [ConfigDAO.downloadConfig_init .exact {} under.1,
          ConfigDAO.downloadConfig_refused .exact {} {} accepted, Option.some.injEq] at answer
        have ip : key.1 = "" := congrArg (·.2.serviceIp) answer
        exact absurd ip under.1.1
    · rintro rfl collation o dao
      rw [handled, ConfigDAO.downloadConfig_refused collation o dao accepted]

/-- A deletion that the table accepts is for the key of its own fields. -/
theorem deletesUnder_of_inRange (parsed : Message.parse msg = (true, req))
    (accepted : ConfigDAO.InRange (cstr req.serviceIp) req.servicePort) :
    DeletesUnder msg (some (cstr req.serviceIp, req.servicePort)) := by
  refine ⟨accepted, fun collation o dao => ?_⟩
  rcases deleted : dao.deleteConfig collation o (cstr req.serviceIp) req.servicePort with ⟨ok, dao'⟩
  unfold deleteConfig
  rw [parsed]
  dsimp only
  rw [deleted]
  cases ok with
  | true => exact ⟨rfl, fun _ _ => rfl⟩
  | false =>
    refine ⟨rfl, fun mysql delete => ?_⟩
    have done := dao.deleteConfig_ok collation o mysql accepted delete
    rw [deleted] at done
    cases done

/-- One that it does not accept is refused. -/
theorem deletesUnder_none_iff (parsed : Message.parse msg = (true, req)) :
    DeletesUnder msg none ↔ ¬ConfigDAO.InRange (cstr req.serviceIp) req.servicePort := by
  constructor
  · intro refused accepted
    have ok := ((deletesUnder_of_inRange parsed accepted).2 .exact {} {}).2 rfl rfl
    rw [refused .exact {} {}] at ok
    exact absurd ok (by simp [sendMsg])
  · intro refused collation o dao
    unfold deleteConfig
    rw [parsed]
    dsimp only
    rw [dao.deleteConfig_refused collation o refused]

/-- What is deleted under a key is not refused. -/
theorem DeletesUnder.inRange {key : Key} (under : DeletesUnder msg (some key))
    (parsed : Message.parse msg = (true, req)) :
    ConfigDAO.InRange (cstr req.serviceIp) req.servicePort := by
  by_contra refused
  have ok := (under.2 .exact {} {}).2 rfl rfl
  rw [(deletesUnder_none_iff parsed).mpr refused .exact {} {}] at ok
  exact absurd ok (by simp [sendMsg])

omit [Protobuf] in
/-- An address that the table accepts was not left out. -/
theorem fillIp_of_inRange {ip : String} {port : Int32}
    (accepted : ConfigDAO.InRange (cstr ip) port) : fillIp clientIp ip = ip := by
  unfold fillIp
  split
  next empty =>
    subst empty
    exact absurd rfl accepted.1
  · rfl

theorem keysAgree_of_inRange (parsed : Message.parse upload = (true, conf))
    (parsed' : Message.parse download = (true, req)) (ip : conf.serviceIp = req.serviceIp)
    (port : conf.servicePort = req.servicePort)
    (accepted : ConfigDAO.InRange (cstr req.serviceIp) req.servicePort) :
    KeysAgree clientIp upload download := by
  have filled : fillIp clientIp req.serviceIp = req.serviceIp := fillIp_of_inRange accepted
  have addressed : req.serviceIp ≠ "" := by
    intro empty
    rw [empty] at accepted
    exact accepted.1 rfl
  refine ⟨some (cstr req.serviceIp, req.servicePort), ?_, ?_, deletesUnder_of_inRange parsed' accepted⟩
  · rw [uploadsUnder_iff parsed, uploadKey, ip, port, filled, if_neg addressed]
  · rw [downloadsUnder_iff parsed', downloadKey, filled, if_pos accepted]

/-- Without any address everything is refused. -/
theorem keysAgree_of_unaddressed (parsed : Message.parse upload = (true, conf))
    (parsed' : Message.parse download = (true, req)) (ip : conf.serviceIp = req.serviceIp)
    (unaddressed : fillIp clientIp req.serviceIp = "") : KeysAgree clientIp upload download := by
  have empty : req.serviceIp = "" := by
    unfold fillIp at unaddressed
    split at unaddressed
    next empty => exact empty
    · exact unaddressed
  have refused (port : Int32) : ¬ConfigDAO.InRange (cstr "") port := fun accepted => accepted.1 rfl
  refine ⟨none, ?_, ?_, ?_⟩
  · rw [uploadsUnder_iff parsed, uploadKey, ip, if_pos unaddressed]
  · rw [downloadsUnder_iff parsed', downloadKey, unaddressed, if_neg (refused _)]
  · rw [deletesUnder_none_iff parsed', empty]
    exact refused _

theorem KeysAgree.condition (agree : KeysAgree clientIp upload download)
    (parsed : Message.parse upload = (true, conf)) (parsed' : Message.parse download = (true, req))
    (ip : conf.serviceIp = req.serviceIp) :
    fillIp clientIp req.serviceIp = "" ∨
      ConfigDAO.InRange (cstr req.serviceIp) req.servicePort := by
  obtain ⟨key, uploads, -, deletes⟩ := agree
  cases key with
  | some key => exact .inr (deletes.inRange parsed')
  | none =>
    left
    have refused := (uploadsUnder_iff parsed none).mp uploads
    rw [uploadKey, ip] at refused
    by_contra addressed
    rw [if_neg addressed] at refused
    cases refused

end

/-! ## Requests with the same fields -/

open Library.Wire.Reader

def uploadOf (ip : String) (port : Int32) : List UInt8 :=
  Message.serialize { serviceIp := ip, servicePort := port : CConfig }

def downloadOf (ip : String) (port : Int32) : List UInt8 :=
  Message.serialize { serviceIp := ip, servicePort := port : CDownloadconfigReq }

end CConfigHandle

end MicroserviceFramework.Config
