import AtomProbe.Mapping

/-!
# `AtomProbe.Vocabulary.Vendor`: the metadata of the vendor

The software of the instrument exports its metadata under field names of
its own.
-/

set_option autoImplicit false

namespace AtomProbe.Vocabulary

/-- The fields of the vendor. -/
def vendor : Table where
  name := "cameca"
  target := some "/ENTRY[entry*]"
  olderTarget := none
  source := some ""
  rules := [
    .copyFrom "reconstruction/quality" "fQuality",
    .copyFrom "reconstruction/primary_element" "fPrimaryElement",
    .copyFrom "measurement/instrument/local_electrode/name" "fApertureName",
    .copyFrom "measurement/instrument/instrument_name" "fAtomProbeName",
    .copyFrom "measurement/instrument/fabrication/model" "fLeapModel",
    .copyFrom "measurement/instrument/pulser/sourceID[source1]/fabrication/model" "fLaserModel",
    .copyFrom "measurement/instrument/comments" "fInstrumentComment",
    .copyFrom "atom_probe/raw_data/serialized/path" "fRawPathName",
    .copyFrom "measurement/status" "fResults",
    .copyFrom "specimen/description" "fSpecimenCondition",
    .copyFrom "specimen/alias" "fSpecimenName",
    .copyFrom "start_time" "fStartISO8601",
    .join "experiment_description" ["fProjectName", "fName", "fComments"],
    .numberFrom "reconstruction/efficiency" "fEfficiency",
    .numberFrom "reconstruction/evaporation_field" "fEvaporationField",
    .numberFrom "reconstruction/flight_path" "fFlightPath",
    .numberFrom "reconstruction/image_compression" "fImageCompression",
    .numberFrom "reconstruction/kfactor" "fKfactor",
    .numberFrom "reconstruction/volume" "fReconVolume",
    .numberFrom "reconstruction/shank_angle" "fShankAngle",
    .numberFrom "reconstruction/obb/xmax" "fXmax",
    .numberFrom "reconstruction/obb/xmin" "fXmin",
    .numberFrom "reconstruction/obb/ymax" "fYmax",
    .numberFrom "reconstruction/obb/ymin" "fYmin",
    .numberFrom "reconstruction/obb/zmax" "fZmax",
    .numberFrom "reconstruction/obb/zmin" "fZmin",
    .numberFrom "measurement/instrument/analysis_chamber/pressure" "fAnalysisPressure",
    .numberFrom "measurement/instrument/local_electrode/voltage" "fAnodeAccelVoltage",
    .numberFrom "elapsed_time" "fElapsedTime",
    .numberFrom "measurement/instrument/pulser/pulse_frequency" "fInitialPulserFreq",
    .numberFrom "measurement/instrument/ion_detector/mcp_efficiency" "fMcpEfficiency",
    .numberFrom "measurement/instrument/ion_detector/mesh_efficiency" "fMeshEfficiency",
    .numberFrom "measurement/instrument/analysis_chamber/flight_path" "fMaximumFlightPathMm",
    .numberFrom "measurement/stage/specimen_temperature" "fSpecimenTemperature",
    .numberFrom "atom_probe/voltage_and_bowl/tof_zero_estimate" "fT0Estimate",
    .unsignedFrom "measurement/instrument/fabrication/serial_number" "fSerialNumber",
    .unsignedFrom "run_number" "fRunNumber"]

end AtomProbe.Vocabulary
