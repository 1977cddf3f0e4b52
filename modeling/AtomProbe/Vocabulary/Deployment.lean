import AtomProbe.Mapping

/-!
# `AtomProbe.Vocabulary.Deployment`: what is the same for every measurement at a facility

The configuration of a facility says where its instrument is and which
works are to be cited. The conventions for the reference frame are fixed.
-/

set_option autoImplicit false

namespace AtomProbe.Vocabulary

/-- The instrument of the facility. -/
def facilityInstrument : Table where
  name := "oasis_config"
  target := some "/ENTRY[entry*]/measurement/instrument"
  olderTarget := none
  source := none
  rules := [
    .copy "instrument_name",
    .copy "location",
    .copyFrom "fabrication/vendor" "fabrication_vendor",
    .copyFrom "fabrication/model" "fabrication_model",
    .copyFrom "fabrication/identifier" "fabrication_identifier"]

/-- The reference frame, whose third axis points along the direction of an
ion that leaves the apex along the longest direction of the specimen. -/
def coordinateSystem : Table where
  name := "coordinate_system"
  target := some "/ENTRY[entry*]/coordinate_system_set/COORDINATE_SYSTEM[coordinate_system]"
  olderTarget := none
  source := none
  rules := [
    .use "alias"
      "Following the idea of McStas that the z-axis points along the direction of an ion leaving the apex along the longest direction of the specimen.",
    .use "type" "cartesian",
    .use "handedness" "right_handed",
    .use "x_direction"
      "Direction 1 that is perpendicular to the z_direction for a right_handed cartesian",
    .use "x_alias" "x-axis",
    .use "y_direction"
      "Direction 2 that is perpendicular to the xaxis_direction and the z_direction for a right_handed cartesian",
    .use "y_alias" "y-axis",
    .use "z_direction"
      "Direction of an ion travelling hypothetically exactly along the assumed axis that is parallel to the longest direction of the specimen.",
    .use "z_alias" "z-axis",
    .use "origin"
      "E.g. a characteristic point e.g. initial apex or center of the base of the specimen or something else."]

/-- A citation. The identifiers are those of the entry and of the citation. -/
def citation : Table where
  name := "citation"
  target := some "/ENTRY[entry*]/CITE[cite*]"
  olderTarget := none
  source := none
  rules := [
    .copy "authors",
    .copy "doi",
    .copy "description",
    .copy "url"]

end AtomProbe.Vocabulary
