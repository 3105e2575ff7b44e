import TrafficControl.TrafficRouter.JsonUtils

set_option autoImplicit false

namespace TrafficControl.TrafficRouter

structure CertificateData where
  deliveryservice : Option String
  hostname : Option String
deriving DecidableEq

-- `none` stands for a NullPointerException.
namespace CertificateChecker

def firstType (matchsets : List JsonNode) : Option String :=
  (matchsets.map fun matchset => JsonUtils.optString matchset "protocol" "").find? fun type => !type.isEmpty

def getDeliveryServiceType (deliveryServiceJson : JsonNode) : Option (Option String) :=
  (deliveryServiceJson.get "matchsets").map fun matchsets => firstType matchsets.elements

def hasCertificate (deliveryServiceId : String) : List CertificateData → Option Bool
  | [] => some false
  | certificateData :: rest =>
    match certificateData.deliveryservice with
    | none => none
    | some deliveryservice =>
      if deliveryservice = deliveryServiceId then some true else hasCertificate deliveryServiceId rest

def supportsHttps (deliveryServiceJson : JsonNode) (protocolJson : Option JsonNode) : Option Bool :=
  (getDeliveryServiceType deliveryServiceJson).map fun type =>
    type = some "HTTP" && JsonUtils.optBoolean protocolJson "acceptHttps" false

def domainStr (domain : JsonNode) : List Char :=
  match (domain.asTextOr "").toList with
  | '*' :: '.' :: rest => rest
  | text => text

def domainsHaveCertificate (certificateDataList : List CertificateData) (deliveryServiceId : String) :
    List JsonNode → Option Bool
  | [] => some false
  | domain :: rest =>
    if (domainStr domain).isEmpty then domainsHaveCertificate certificateDataList deliveryServiceId rest
    else match hasCertificate deliveryServiceId certificateDataList with
      | none => none
      | some true => some true
      | some false => domainsHaveCertificate certificateDataList deliveryServiceId rest

def deliveryServiceHasValidCertificates (certificateDataList : List CertificateData) (deliveryServiceId : String)
    (deliveryServiceJson : JsonNode) : Option Bool :=
  match supportsHttps deliveryServiceJson (deliveryServiceJson.get "protocol") with
  | none => none
  | some false => some true
  | some true =>
    match deliveryServiceJson.get "domains" with
    | none => some true
    | some domains =>
      if domains.elements.isEmpty then some true
      else domainsHaveCertificate certificateDataList deliveryServiceId domains.elements

def allHaveValidCertificates (certificateDataList : List CertificateData) : List (String × JsonNode) → Option Bool
  | [] => some true
  | field :: rest =>
    match deliveryServiceHasValidCertificates certificateDataList field.1 field.2 with
    | none => none
    | some false => some false
    | some true => allHaveValidCertificates certificateDataList rest

def certificatesAreValid (certificateDataList : List CertificateData) (deliveryServicesJson : JsonNode) : Option Bool :=
  allHaveValidCertificates certificateDataList deliveryServicesJson.fields

end CertificateChecker

end TrafficControl.TrafficRouter
