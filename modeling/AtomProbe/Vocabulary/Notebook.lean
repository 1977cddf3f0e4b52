import AtomProbe.Mapping

/-!
# `AtomProbe.Vocabulary.Notebook`: the electronic laboratory notebook

The notebook describes the experiment, its sample and specimen, the
instrument, the reconstruction and the users in a schema of its own.
These tables say which part of it is which concept of the template.
-/

set_option autoImplicit false

namespace AtomProbe.Vocabulary

/-- The experiment as a whole. -/
def experiment : Table where
  name := "entry"
  target := some "/ENTRY[entry*]"
  olderTarget := none
  source := some "entry"
  rules := [
    .copyFrom "experiment_alias" "run_number",
    .copy "run_number",
    .copy "operation_mode",
    .copy "method",
    .copy "start_time",
    .copy "end_time",
    .copy "experiment_description"]

/-- The sample and its heat treatment. -/
def sample : Table where
  name := "sample"
  target := some "/ENTRY[entry*]/sample"
  olderTarget := none
  source := some "sample"
  rules := [
    .use "method" "experiment",
    .copy "alias",
    .copy "description",
    .copyFrom "grain_diameter/@units" "grain_diameter/unit",
    .copyFrom "grain_diameter_error/@units" "grain_diameter/unit",
    .copyFrom "heat_treatment_temperature/@units" "heat_treatment_temperature/unit",
    .copyFrom "heat_treatment_temperature_error/@units" "heat_treatment_temperature_error/unit",
    .copyFrom "heat_treatment_quenching_rate/@units" "heat_treatment_quenching_rate/unit",
    .copyFrom "heat_treatment_quenching_rate_error/@units"
      "heat_treatment_quenching_rate_error/unit",
    .numberFrom "grain_diameter" "grain_diameter/value",
    .numberFrom "grain_diameter_error" "grain_diameter_error/value",
    .numberFrom "heat_treatment_temperature" "heat_treatment_temperature/value",
    .numberFrom "heat_treatment_temperature_error" "heat_treatment_temperature_error/value",
    .numberFrom "heat_treatment_quenching_rate" "heat_treatment_quenching_rate/value",
    .numberFrom "heat_treatment_quenching_rate_error" "heat_treatment_quenching_rate_error/value"]

/-- The specimen that was cut from the sample. -/
def specimen : Table where
  name := "specimen"
  target := some "/ENTRY[entry*]/specimen"
  olderTarget := none
  source := some "specimen"
  rules := [
    .copy "alias",
    .copy "preparation_date",
    .copy "description",
    .copyFrom "initial_radius/@units" "initial_radius/unit",
    .copyFrom "shank_angle/@units" "shank_angle/unit",
    .boolean "is_polycrystalline",
    .boolean "is_amorphous",
    .numberFrom "initial_radius" "initial_radius/value",
    .numberFrom "shank_angle" "shank_angle/value"]

/-- What does not change in the course of a measurement. -/
def instrumentStatic : Table where
  name := "instrument_static"
  target := some "/ENTRY[entry*]/measurement/instrument"
  olderTarget := none
  source := some "instrument"
  rules := [
    .copy "status",
    .copy "instrument_name",
    .copy "location",
    .copyFrom "fabrication/vendor" "fabrication_vendor",
    .copyFrom "fabrication/model" "fabrication_model",
    .copyFrom "fabrication/identifier" "fabrication_identifier",
    .copyFrom "reflectron/status" "reflectron_status",
    .copyFrom "local_electrode/name" "local_electrode_name",
    .copyFrom "pulser/pulse_mode" "pulser/pulse_mode",
    .copyFrom "analysis_chamber/flight_path/@units" "nominal_flight_path/unit",
    .numberFrom "analysis_chamber/flight_path" "nominal_flight_path/value"]

/-- What may change in the course of a measurement. -/
def instrumentDynamic : Table where
  name := "instrument_dynamic"
  target := some "/ENTRY[entry*]/measurement/event_data_apm_set/event_data_apm/instrument"
  olderTarget := none
  source := some "instrument"
  rules := [
    .use "control/target_detection_rate/@units" "ions/pulse",
    .copyFrom "control/evaporation_control" "evaporation_control",
    .copyFrom "pulser/pulse_frequency/@units" "pulser/pulse_frequency/unit",
    .copyFrom "analysis_chamber/chamber_pressure/@units" "chamber_pressure/unit",
    .copyFrom "stage_lab/base_temperature/@units" "stage_lab/base_temperature/unit",
    .numberFrom "control/target_detection_rate" "target_detection_rate",
    .numberFrom "pulser/pulse_frequency" "pulser/pulse_frequency/value",
    .numberFrom "pulser/pulse_fraction" "pulser/pulse_fraction/value",
    .numberFrom "analysis_chamber/chamber_pressure" "chamber_pressure/value",
    .numberFrom "stage_lab/base_temperature" "base_temperature/value"]

/-- What does not change of a laser source. The identifiers are those of the
entry and of the source. -/
def laserSourceStatic : Table where
  name := "laser_source_static"
  target := some "/ENTRY[entry*]/measurement/instrument/pulser/sourceID[source*]"
  olderTarget := none
  source := none
  rules := [
    .copy "name",
    .copyFrom "wavelength/@units" "wavelength/unit",
    .numberFrom "wavelength" "wavelength/value"]

/-- What may change of a laser source. -/
def laserSourceDynamic : Table where
  name := "laser_source_dynamic"
  target := some
    "/ENTRY[entry*]/measurement/event_data_apm_set/event_data_apm/instrument/pulser/sourceID[source*]"
  olderTarget := none
  source := none
  rules := [
    .copyFrom "power/@units" "power/unit",
    .copyFrom "pulse_energy/@units" "pulse_energy/unit",
    .numberFrom "power" "power/value",
    .numberFrom "pulse_energy" "pulse_energy/value"]

/-- The program that assigned ranges. -/
def ranging : Table where
  name := "ranging"
  target := some "/ENTRY[entry*]/atom_probe/ranging"
  olderTarget := none
  source := some "ranging"
  rules := [
    .copyFrom "programID[program1]/program" "program",
    .copyFrom "programID[program1]/program/@version" "program_version"]

/-- The reconstruction of the specimen. -/
def reconstruction : Table where
  name := "reconstruction"
  target := some "/ENTRY[entry*]/atom_probe/reconstruction"
  olderTarget := none
  source := some "reconstruction"
  rules := [
    .copyFrom "programID[program1]/program" "program",
    .copyFrom "programID[program1]/program/@version" "program_version",
    .copyFrom "field_of_view/@units" "field_of_view/unit",
    .copy "protocol_name",
    .copy "crystallographic_calibration",
    .copy "parameter",
    .numberFrom "field_of_view" "field_of_view/value"]

/-- A user. The identifiers are those of the entry and of the user. -/
def user : Table where
  name := "user"
  target := some "/ENTRY[entry*]/USER[user*]"
  olderTarget := none
  source := none
  rules := [
    .copy "name",
    .copy "affiliation",
    .copy "address",
    .copy "email",
    .copy "telephone_number",
    .copy "role",
    .copy "social_media_name",
    .copy "social_media_platform"]

/-- The identifier of a user. -/
def userIdentifier : Table where
  name := "user_identifier"
  target := some "/ENTRY[entry*]/USER[user*]"
  olderTarget := none
  source := none
  rules := [
    .use "identifierNAME[identifier]/service" "orcid",
    .useBoolean "identifierNAME[identifier]/is_persistent" true,
    .copyFrom "identifierNAME[identifier]/identifier" "orcid"]

/-- The tables that are applied once for each entry, in this order. -/
def entryTables : List Table :=
  [experiment, sample, specimen, instrumentStatic, instrumentDynamic, ranging, reconstruction]

/-- The path below which the checksums lie. -/
def workflowTarget : String := "/ENTRY[entry*]/atom_probe"

/-- The key below which the files of the workflow are named. -/
def workflowSource : String := "workflow"

/-- The checksums of the files of the workflow: the target below the
path and the source below the key. -/
def workflowChecksums : List (String × String) := [
    ("raw_data/SERIALIZED[serialized]/checksum", "raw_dat_file"),
    ("hit_finding/SERIALIZED[serialized]/checksum", "hit_dat_file"),
    ("reconstruction/config/checksum", "recon_cfg_file")]

end AtomProbe.Vocabulary
